import BitBlinder.Tor.PaidTraffic

/-!
# Payments that wait for the setup

Before the setup is complete, `send_payment_request` adds the tokens to two
counters, which `handle_setup_reply` is to send when it completes the setup. It
sets them to zero first, and then finds nothing to send.
-/

namespace BitBlinder.Tor

set_option autoImplicit false
set_option maxRecDepth 2048

open Struct Effects

/-- What a payment was requested with, and the deferreds of its streams. -/
def Payment.terms (p : Payment) : Nat × Nat × List (Nat × Nat) :=
  (p.readTokens, p.writeTokens, p.paymentsDone.deferreds)

namespace ClientPaymentHandler
variable {β : Type}

/-- Whether `send_payment_request` takes the tokens: it neither raises nor finds a circuit that
is already closed. -/
def takes (env : PaymentEnvironment β) (s : ClientPaymentHandler β) (readTokens writeTokens : Nat) : Bool :=
  match sendPaymentRequest env readTokens writeTokens s with
  | .ok _ _ => !(s.setupDone && s.circDone)
  | .error _ _ => false

/-- The read tokens that an action asks to pay for. -/
def requestedRead (env : PaymentEnvironment β) (s : ClientPaymentHandler β) : Action β → Nat
  | .sendPaymentRequest readTokens writeTokens => if s.takes env readTokens writeTokens then readTokens else 0
  | _ => 0

def requestedWrite (env : PaymentEnvironment β) (s : ClientPaymentHandler β) : Action β → Nat
  | .sendPaymentRequest readTokens writeTokens => if s.takes env readTokens writeTokens then writeTokens else 0
  | _ => 0

/-- The read tokens of the payments that were requested from the streams. -/
def sentRead (s : ClientPaymentHandler β) : Nat := (s.payments.map Payment.readTokens).sum

def sentWrite (s : ClientPaymentHandler β) : Nat := (s.payments.map Payment.writeTokens).sum

/-- A setup is completed only when nothing waits for it. -/
def NothingWaits (env : PaymentEnvironment β) (s : ClientPaymentHandler β) : Action β → Prop
  | .setupReply msg => s.CompletesSetup env msg → s.queuedReadTokens = 0 ∧ s.queuedWriteTokens = 0
  | _ => True

instance decidableNothingWaits (env : PaymentEnvironment β) (s : ClientPaymentHandler β) :
    (a : Action β) → Decidable (s.NothingWaits env a)
  | .setupReply _ => inferInstanceAs (Decidable (_ → _))
  | .sendSetupMessage | .setupTimeout | .sendPaymentRequest _ _ | .receipt _ | .paymentTimeout _ | .tokensAdded _ _
  | .bank _ | .torReady _ | .circuitDone | .circuitClosed => isTrue trivial

/-- The read tokens that are waiting when an action completes the setup. -/
def droppedRead (env : PaymentEnvironment β) (s : ClientPaymentHandler β) : Action β → Nat
  | .setupReply msg => if s.CompletesSetup env msg then s.queuedReadTokens else 0
  | _ => 0

def droppedWrite (env : PaymentEnvironment β) (s : ClientPaymentHandler β) : Action β → Nat
  | .setupReply msg => if s.CompletesSetup env msg then s.queuedWriteTokens else 0
  | _ => 0

/-- No payment was requested between the states, and the streams are the same. -/
structure SameRequests (s t : ClientPaymentHandler β) : Prop where
  terms : t.payments.map Payment.terms = s.payments.map Payment.terms
  queuedRead : t.queuedReadTokens = s.queuedReadTokens
  queuedWrite : t.queuedWriteTokens = s.queuedWriteTokens
  streams : t.paymentStreams.length = s.paymentStreams.length

instance : IsPreorder (ClientPaymentHandler β) SameRequests where
  refl _ := ⟨rfl, rfl, rfl, rfl⟩
  trans _ _ _ h h' := ⟨h'.terms.trans h.terms, h'.queuedRead.trans h.queuedRead,
    h'.queuedWrite.trans h.queuedWrite, h'.streams.trans h.streams⟩

theorem sameRequests_of_eq {s t : ClientPaymentHandler β} (hpayments : t.payments = s.payments)
    (hread : t.queuedReadTokens = s.queuedReadTokens) (hwrite : t.queuedWriteTokens = s.queuedWriteTokens)
    (hstreams : t.paymentStreams.length = s.paymentStreams.length) : SameRequests s t :=
  ⟨by rw [hpayments], hread, hwrite, hstreams⟩

theorem terms_modify (payments : List Payment) (k : Nat) {f : Payment → Payment} (hf : ∀ p, (f p).terms = p.terms) :
    (payments.modify k f).map Payment.terms = payments.map Payment.terms := by
  induction payments generalizing k with
  | nil => simp
  | cons p payments ih =>
    cases k with
    | zero => simp [hf]
    | succ k => simp [ih k]

theorem firing_sameRequests : Firing (SameRequests (β := β)) where
  fired _ _ := sameRequests_of_eq rfl rfl rfl rfl
  collect k d result s := by
    refine ⟨terms_modify s.payments k fun p => ?_, rfl, rfl, rfl⟩
    simp [Payment.terms]
  cancel k s := ⟨terms_modify s.payments k fun _ => rfl, rfl, rfl, rfl⟩
  credit _ _ _ := .modify fun _ => sameRequests_of_eq rfl rfl rfl rfl
  request _ _ := sameRequests_of_eq rfl rfl rfl rfl
  close := .modify fun _ => sameRequests_of_eq rfl rfl rfl rfl
  release _ _ := .modify fun _ => sameRequests_of_eq rfl rfl rfl (List.length_modify _ _ _)

theorem paying_sameRequests : Paying (SameRequests (β := β)) where
  aside _ _ _ _ _ := sameRequests_of_eq rfl rfl rfl rfl
  output _ := .modify fun _ => sameRequests_of_eq rfl rfl rfl rfl
  stream _ _ _ _ := .modify fun _ => sameRequests_of_eq rfl rfl rfl (List.length_modify _ _ _)
  register _ := sameRequests_of_eq rfl rfl rfl (List.length_modify _ _ _)
  finish := firing_sameRequests.finishPayment

/-- The payments and the queue have grown by the given tokens. -/
structure Grown (s : ClientPaymentHandler β) (readTokens writeTokens : Nat) (t : ClientPaymentHandler β) : Prop where
  read : t.sentRead + t.queuedReadTokens = s.sentRead + s.queuedReadTokens + readTokens
  write : t.sentWrite + t.queuedWriteTokens = s.sentWrite + s.queuedWriteTokens + writeTokens

/-- Every payment was requested from each stream. -/
def Covered (s : ClientPaymentHandler β) : Prop :=
  ∀ p ∈ s.payments, p.paymentsDone.deferreds.map Prod.fst = List.range s.paymentStreams.length

namespace SameRequests
variable {s t : ClientPaymentHandler β} (h : SameRequests s t)
include h

theorem grown : Grown s 0 0 t := by
  have hread : t.sentRead = s.sentRead := by
    have hmap := congrArg (fun terms => (terms.map Prod.fst).sum) h.terms
    simpa [Payment.terms, sentRead, Function.comp_def] using hmap
  have hwrite : t.sentWrite = s.sentWrite := by
    have hmap := congrArg (fun terms => (terms.map fun term => term.2.1).sum) h.terms
    simpa [Payment.terms, sentWrite, Function.comp_def] using hmap
  exact ⟨by rw [hread, h.queuedRead]; rfl, by rw [hwrite, h.queuedWrite]; rfl⟩

theorem covered (hs : s.Covered) : t.Covered := by
  intro p hp
  have hterms : p.terms ∈ s.payments.map Payment.terms := by
    rw [← h.terms]
    exact List.mem_map_of_mem hp
  obtain ⟨q, hq, hpq⟩ := List.mem_map.mp hterms
  have hdeferreds : q.paymentsDone.deferreds = p.paymentsDone.deferreds := congrArg (fun terms => terms.2.2) hpq
  rw [← hdeferreds, h.streams]
  exact hs q hq

end SameRequests

theorem Grown.trans_same {s t u : ClientPaymentHandler β} {readTokens writeTokens : Nat}
    (h : Grown s readTokens writeTokens t) (htu : SameRequests t u) : Grown s readTokens writeTokens u :=
  ⟨htu.grown.read.trans h.read, htu.grown.write.trans h.write⟩

theorem SameRequests.trans_grown {s t u : ClientPaymentHandler β} {readTokens writeTokens : Nat}
    (h : SameRequests s t) (htu : Grown t readTokens writeTokens u) : Grown s readTokens writeTokens u := by
  have hread := h.grown.read
  have hwrite := h.grown.write
  exact ⟨by rw [htu.read, hread]; rfl, by rw [htu.write, hwrite]; rfl⟩

theorem awaitReceipts_grown (readTokens writeTokens : Nat) {s : ClientPaymentHandler β} (hs : s.Covered)
    {ds : List (Nat × Nat)} (hds : ds.map Prod.fst = List.range s.paymentStreams.length) :
    Outcome (awaitReceipts readTokens writeTokens ds) s (fun _ t => Grown s readTokens writeTokens t ∧ t.Covered)
      fun _ _ => False := by
  simp only [awaitReceipts, outcome_bind, outcome_get, outcome_modify]
  refine (firing_sameRequests.listFired _ _ _).mono (fun _ t ht => ?_) fun _ _ h => h
  constructor
  · refine Grown.trans_same ⟨?_, ?_⟩ ht
    · simp only [sentRead, List.map_append, List.map_cons, List.map_nil, List.sum_append_nat, List.sum_cons,
        List.sum_nil]
      omega
    · simp only [sentWrite, List.map_append, List.map_cons, List.map_nil, List.sum_append_nat, List.sum_cons,
        List.sum_nil]
      omega
  · refine ht.covered fun p hp => ?_
    rcases List.mem_append.mp hp with hp | hp
    · exact hs p hp
    · rw [List.mem_singleton.mp hp, DeferredList.deferreds_new]
      exact hds

theorem sendSetupMessage_sameRequests : Moves SameRequests (sendSetupMessage : Pay β Unit) := by
  refine .bind .get fun s => .when fun _ => .bind (.modify fun _ => sameRequests_of_eq rfl rfl rfl rfl) fun _ => ?_
  exact moves_sendSetups (fun _ _ _ => .modify fun _ => sameRequests_of_eq rfl rfl rfl rfl) _

theorem sendPaymentRequest_grown (env : PaymentEnvironment β) (readTokens writeTokens : Nat)
    {s : ClientPaymentHandler β} (hs : s.Covered) :
    Outcome (sendPaymentRequest env readTokens writeTokens) s
      (fun _ t => t.Covered ∧ if !(s.setupDone && s.circDone) then Grown s readTokens writeTokens t else SameRequests s t)
      fun _ => SameRequests s := by
  unfold sendPaymentRequest
  rw [outcome_bind, outcome_get, outcome_ite]
  split
  · exact refl_of SameRequests s
  · rw [outcome_ite]
    split
    · rename_i hsetup
      have hsetup : s.setupDone = false := by simpa using hsetup
      rw [outcome_bind]
      refine (sendSetupMessage_sameRequests s).mono (fun _ t ht => ?_) fun _ _ ht => ht
      refine ⟨ht.covered hs, ?_⟩
      rw [if_pos (by simp [hsetup])]
      refine ht.trans_grown ⟨?_, ?_⟩
      · exact (Nat.add_assoc _ _ _).symm
      · exact (Nat.add_assoc _ _ _).symm
    · rename_i hsetup
      have hsetup : s.setupDone = true := by simpa using hsetup
      rw [outcome_when]
      split
      · rename_i hopen
        have hopen : s.circDone = false := by simpa using hopen
        rw [outcome_bind]
        have hpay := paying_sameRequests.sendPayments env readTokens writeTokens (List.range s.paymentStreams.length) s
        refine (hpay.and (sendPayments_streams env readTokens writeTokens _ s)).mono (fun ds t ht => ?_)
          fun _ _ ht => ht.1
        obtain ⟨hst, hds⟩ := ht
        rw [← hst.streams] at hds
        refine (awaitReceipts_grown readTokens writeTokens (hst.covered hs) hds).mono (fun _ u hu => ?_) fun _ _ h => h.elim
        rw [if_pos (by simp [hopen])]
        exact ⟨hu.2, hst.trans_grown hu.1⟩
      · rename_i hdone
        have hdone : s.circDone = true := by simpa using hdone
        rw [if_neg (by simp [hsetup, hdone])]
        exact ⟨hs, refl_of SameRequests s⟩

theorem tokensAdded_sameRequests (s : ClientPaymentHandler β) (request : TokenRequest) (reply : TokenReply) :
    SameRequests s (finish (tokensAdded request reply) s) := by
  cases request with
  | start =>
    cases reply with
    | values read write => exact sameRequests_of_eq rfl rfl rfl rfl
    | nothing => exact sameRequests_of_eq rfl rfl rfl rfl
    | malformed => exact refl_of SameRequests s
  | payment readTokens writeTokens =>
    cases reply with
    | values read write => exact sameRequests_of_eq rfl rfl rfl rfl
    | nothing => exact refl_of SameRequests s
    | malformed => exact refl_of SameRequests s

/-- What a step asks for is in the payments and the queue after it, but for what it drops. -/
structure Booked (env : PaymentEnvironment β) (s : ClientPaymentHandler β) (a : Action β)
    (t : ClientPaymentHandler β) : Prop where
  covered : t.Covered
  read : t.sentRead + t.queuedReadTokens + s.droppedRead env a =
    s.sentRead + s.queuedReadTokens + s.requestedRead env a
  write : t.sentWrite + t.queuedWriteTokens + s.droppedWrite env a =
    s.sentWrite + s.queuedWriteTokens + s.requestedWrite env a

theorem SameRequests.booked {env : PaymentEnvironment β} {s t : ClientPaymentHandler β} {a : Action β}
    (h : SameRequests s t) (hs : s.Covered) (hdropped : s.droppedRead env a = 0 ∧ s.droppedWrite env a = 0)
    (hrequested : s.requestedRead env a = 0 ∧ s.requestedWrite env a = 0) : Booked env s a t := by
  refine ⟨h.covered hs, ?_, ?_⟩
  · rw [hdropped.1, hrequested.1]
    exact h.grown.read
  · rw [hdropped.2, hrequested.2]
    exact h.grown.write

theorem sendPaymentRequest_booked (env : PaymentEnvironment β) {s : ClientPaymentHandler β} (hs : s.Covered)
    (readTokens writeTokens : Nat) : Booked env s (.sendPaymentRequest readTokens writeTokens)
      (finish (sendPaymentRequest env readTokens writeTokens) s) := by
  have hgrown := sendPaymentRequest_grown env readTokens writeTokens hs
  unfold Outcome at hgrown
  unfold finish
  cases hcall : sendPaymentRequest env readTokens writeTokens s with
  | error e t =>
    rw [hcall] at hgrown
    have htakes : s.takes env readTokens writeTokens = false := by simp [takes, hcall]
    exact hgrown.booked hs ⟨rfl, rfl⟩ ⟨by simp [requestedRead, htakes], by simp [requestedWrite, htakes]⟩
  | ok _ t =>
    rw [hcall] at hgrown
    have htakes : s.takes env readTokens writeTokens = !(s.setupDone && s.circDone) := by simp only [takes, hcall]
    obtain ⟨hcovered, hgrown⟩ := hgrown
    rw [← htakes] at hgrown
    split at hgrown
    · rename_i htaken
      refine ⟨hcovered, ?_, ?_⟩
      · simp only [droppedRead, requestedRead, if_pos htaken]
        exact hgrown.read
      · simp only [droppedWrite, requestedWrite, if_pos htaken]
        exact hgrown.write
    · rename_i htaken
      exact hgrown.booked hs ⟨rfl, rfl⟩ ⟨by simp [requestedRead, htaken], by simp [requestedWrite, htaken]⟩

theorem setupReplied_booked {env : PaymentEnvironment β} {s t : ClientPaymentHandler β} (hs : s.Covered) {msg : Bytes}
    (ht : SetupReplied env s msg t) : Booked env s (.setupReply msg) t := by
  cases ht with
  | completed ids_eq completes =>
    have hlength := congrArg List.length ids_eq
    simp only [streamIds, List.length_map] at hlength
    refine ⟨fun p hp => ?_, ?_, ?_⟩
    · rw [hlength]
      exact hs p hp
    · simp only [droppedRead, if_pos completes, requestedRead]
      rfl
    · simp only [droppedWrite, if_pos completes, requestedWrite]
      rfl
  | stored ids_eq incomplete closed =>
    have hlength := congrArg List.length ids_eq
    simp only [streamIds, List.length_map] at hlength
    refine SameRequests.booked (sameRequests_of_eq rfl rfl rfl hlength) hs ?_ ⟨rfl, rfl⟩
    simp [droppedRead, droppedWrite, incomplete]

theorem step_booked {env : PaymentEnvironment β} {s t : ClientPaymentHandler β} {a : Action β} (hs : s.Covered)
    (hstep : step env s a = some t) : Booked env s a t := by
  cases a with
  | sendSetupMessage =>
    cases hstep
    exact (sendSetupMessage_sameRequests.finish s).booked hs ⟨rfl, rfl⟩ ⟨rfl, rfl⟩
  | setupTimeout =>
    obtain rfl := step_setupTimeout hstep
    exact (firing_sameRequests.close.finish s).booked hs ⟨rfl, rfl⟩ ⟨rfl, rfl⟩
  | setupReply msg =>
    cases hstep
    exact setupReplied_booked hs (handleSetupReply_replied env msg s)
  | sendPaymentRequest readTokens writeTokens =>
    cases hstep
    exact sendPaymentRequest_booked env hs readTokens writeTokens
  | receipt msg =>
    cases hstep
    have hreceipt := paying_sameRequests.handleReceipt env firing_sameRequests.close msg
    exact (hreceipt.finish s).booked hs ⟨rfl, rfl⟩ ⟨rfl, rfl⟩
  | paymentTimeout k =>
    obtain rfl := step_paymentTimeout hstep
    have hevent : SameRequests s { s with payments := s.payments.modify k fun p => { p with event := false } } :=
      ⟨terms_modify s.payments k fun _ => rfl, rfl, rfl, rfl⟩
    have hclosed := firing_sameRequests.close.finish
      { s with payments := s.payments.modify k fun p => { p with event := false } }
    exact (trans_of SameRequests hevent hclosed).booked hs ⟨rfl, rfl⟩ ⟨rfl, rfl⟩
  | tokensAdded k reply =>
    obtain ⟨request, -, rfl⟩ := Option.map_eq_some_iff.mp hstep
    have herased : SameRequests s { s with tokenRequests := s.tokenRequests.eraseIdx k } :=
      sameRequests_of_eq rfl rfl rfl rfl
    exact (trans_of SameRequests herased (tokensAdded_sameRequests _ request reply)).booked hs ⟨rfl, rfl⟩ ⟨rfl, rfl⟩
  | bank bank =>
    cases hstep
    refine SameRequests.booked ?_ hs ⟨rfl, rfl⟩ ⟨rfl, rfl⟩
    exact sameRequests_of_eq rfl rfl rfl rfl
  | torReady isReady =>
    cases hstep
    refine SameRequests.booked ?_ hs ⟨rfl, rfl⟩ ⟨rfl, rfl⟩
    exact sameRequests_of_eq rfl rfl rfl rfl
  | circuitDone =>
    cases hstep
    refine SameRequests.booked ?_ hs ⟨rfl, rfl⟩ ⟨rfl, rfl⟩
    exact sameRequests_of_eq rfl rfl rfl rfl
  | circuitClosed =>
    cases hstep
    refine SameRequests.booked ?_ hs ⟨rfl, rfl⟩ ⟨rfl, rfl⟩
    exact sameRequests_of_eq rfl rfl rfl rfl

theorem nothingWaits_iff {env : PaymentEnvironment β} {s : ClientPaymentHandler β} {a : Action β} :
    s.NothingWaits env a ↔ s.droppedRead env a = 0 ∧ s.droppedWrite env a = 0 := by
  cases a with
  | setupReply msg =>
    simp only [NothingWaits, droppedRead, droppedWrite]
    split
    · rename_i hcompletes
      exact ⟨fun h => h hcompletes, fun h _ => h⟩
    · rename_i hcompletes
      exact iff_of_true (fun h => absurd h hcompletes) ⟨rfl, rfl⟩
  | _ => exact iff_of_true trivial ⟨rfl, rfl⟩

/-- In every run each payment was requested from every stream, and all tokens that were asked for
are sent or queued exactly when the setup was never completed while tokens were waiting for it. -/
theorem requested_eq_sent_add_queued_iff (env : PaymentEnvironment β) (bank : β) (finalPath : List Bytes)
    {as : List (Action β)} {s : ClientPaymentHandler β}
    (h : Run (step env) (fun _ _ => True) (new env bank finalPath) as s) :
    (∀ p ∈ s.payments, p.paymentsDone.deferreds.map Prod.fst = List.range s.paymentStreams.length) ∧
      (tally (step env) (requestedRead env) (new env bank finalPath) as = s.sentRead + s.queuedReadTokens ∧
          tally (step env) (requestedWrite env) (new env bank finalPath) as = s.sentWrite + s.queuedWriteTokens ↔
        EachStep (step env) (NothingWaits env) (new env bank finalPath) as) := by
  have hnew : (new env bank finalPath).Covered := fun p hp => by cases hp
  have hcovered : ∀ {s t : ClientPaymentHandler β} {a}, s.Covered → step env s a = some t → t.Covered :=
    fun hs hstep => (step_booked hs hstep).covered
  have hread : s.sentRead + s.queuedReadTokens + tally (step env) (droppedRead env) (new env bank finalPath) as =
      0 + tally (step env) (requestedRead env) (new env bank finalPath) as :=
    h.conserved hcovered (fun hs hstep => (step_booked hs hstep).read) hnew
  have hwrite : s.sentWrite + s.queuedWriteTokens + tally (step env) (droppedWrite env) (new env bank finalPath) as =
      0 + tally (step env) (requestedWrite env) (new env bank finalPath) as :=
    h.conserved hcovered (fun hs hstep => (step_booked hs hstep).write) hnew
  have hsame : EachStep (step env) (NothingWaits env) (new env bank finalPath) as ↔
      EachStep (step env) (fun s a => s.droppedRead env a = 0 ∧ s.droppedWrite env a = 0) (new env bank finalPath) as :=
    eachStep_iff (I := fun _ => True) (fun _ _ => nothingWaits_iff) (fun _ _ _ _ => trivial) trivial
      (eachStep_true _ _)
  refine ⟨h.invariant (fun hs _ hstep => hcovered hs hstep) hnew, ?_⟩
  rw [hsame, eachStep_and, ← tally_eq_zero_iff, ← tally_eq_zero_iff]
  omega

/-- A payment that is asked for after the setup. -/
theorem requested_eq_sent_add_queued_one_hop :
    ∃ s, Run (step exampleEnvironment) (fun _ _ => True) (new exampleEnvironment exampleBank [exampleRelay])
        exampleRequest s ∧
      tally (step exampleEnvironment) (requestedRead exampleEnvironment)
        (new exampleEnvironment exampleBank [exampleRelay]) exampleRequest = s.sentRead + s.queuedReadTokens := by
  have hend : (exec (step exampleEnvironment) (new exampleEnvironment exampleBank [exampleRelay])
      exampleRequest).isSome = true := by
    decide
  have hok : EachStep (step exampleEnvironment) (NothingWaits exampleEnvironment)
      (new exampleEnvironment exampleBank [exampleRelay]) exampleRequest := by
    decide
  obtain ⟨s, hs⟩ := Option.isSome_iff_exists.mp hend
  have hrun := run_of_exec hs (eachStep_true _ _)
  have hsent := requested_eq_sent_add_queued_iff exampleEnvironment exampleBank [exampleRelay] hrun
  exact ⟨s, hrun, (hsent.2.mpr hok).1⟩

/-- A payment that is asked for before the setup, which starts it, and the setup reply. -/
def exampleEarly : List (Action Client.BankConnection) :=
  [.sendPaymentRequest Globals.CELLS_PER_PAYMENT 0, .setupReply (1 :: exampleRelay ++ exampleTokens)]

theorem early_request_dropped :
    ∃ s, Run (step exampleEnvironment) (fun _ _ => True) (new exampleEnvironment exampleBank [exampleRelay])
        exampleEarly s ∧
      s.setupDone = true ∧ s.circDone = false ∧
      tally (step exampleEnvironment) (requestedRead exampleEnvironment)
        (new exampleEnvironment exampleBank [exampleRelay]) exampleEarly = Globals.CELLS_PER_PAYMENT ∧
      s.payments.length = 0 ∧ s.sentRead + s.queuedReadTokens = 0 := by
  have htally : tally (step exampleEnvironment) (requestedRead exampleEnvironment)
      (new exampleEnvironment exampleBank [exampleRelay]) exampleEarly = Globals.CELLS_PER_PAYMENT := by
    decide
  have hend : (exec (step exampleEnvironment) (new exampleEnvironment exampleBank [exampleRelay])
      exampleEarly).any (fun s => decide (s.setupDone = true ∧ s.circDone = false ∧ s.payments.length = 0 ∧
        s.sentRead + s.queuedReadTokens = 0)) = true := by
    decide
  obtain ⟨s, hrun, hdecide⟩ := exists_run hend (eachStep_true _ _)
  obtain ⟨hsetup, hopen, hnone, hzero⟩ := of_decide_eq_true hdecide
  exact ⟨s, hrun, hsetup, hopen, htally, hnone, hzero⟩

end ClientPaymentHandler

end BitBlinder.Tor
