import BitBlinder.Client.BankConnection
import BitBlinder.Tor.PaymentFrames

/-!
# The client credits itself for what it has paid

`all_receipts_received` adds tokens when no deferred of a payment has failed.
The errback that every such deferred already carries turns the failure of a
hop that got no coin into a success, so this stands for receipts from all hops
only as long as the wallet supplies the coins that are asked for.
-/

namespace BitBlinder.Tor

set_option autoImplicit false
set_option maxRecDepth 2048

open Struct Effects

namespace ClientPaymentHandler
variable {β : Type}

/-- The next `n` calls of `get_acoins` find the wallet not empty; one that raises is the last. -/
def supplies (getAcoins : EStateM PyError β (List ACoin)) : Nat → β → Bool
  | 0, _ => true
  | n + 1, bank =>
    match getAcoins bank with
    | .ok coins bank => decide (coins ≠ []) && supplies getAcoins n bank
    | .error _ _ => true

/-- Stream `i` has tokens for `n` payments. -/
def canPay (s : ClientPaymentHandler β) (n i : Nat) : Bool :=
  match s.paymentStreams[i]? with
  | none => false
  | some stream => decide (n ≤ stream.paymentTokens.entries.length)

/-- The coins that stream `i` asks for to start its first pending payment. -/
def pendingCoins (s : ClientPaymentHandler β) (i : Nat) : Nat :=
  match (s.paymentStreams[i]?).map PaymentStream.pendingPayments with
  | some ((readTokens, writeTokens, _) :: _) => numPayments readTokens writeTokens
  | _ => 0

/-- The number of coins that `start_bank_process` asks for in the course of an action. -/
def asked (s : ClientPaymentHandler β) : Action β → Nat
  | .sendPaymentRequest readTokens writeTokens =>
    if s.setupDone ∧ !s.circDone then
      numPayments readTokens writeTokens *
        (List.range s.paymentStreams.length).countP (s.canPay (numPayments readTokens writeTokens))
    else
      0
  | .receipt msg =>
    match (do
        let (_, msg) ← Basic.readByte msg
        s.getPaymentStream msg) with
    | .error _ => 0
    | .ok (i, _) => s.pendingCoins i
  | _ => 0

/-- The wallet is not exhausted before all coins that the action asks for have been given. -/
def WalletSupplies (env : PaymentEnvironment β) (s : ClientPaymentHandler β) (a : Action β) : Prop :=
  supplies env.getAcoins (s.asked a) s.bank = true

instance (env : PaymentEnvironment β) (s : ClientPaymentHandler β) (a : Action β) :
    Decidable (s.WalletSupplies env a) := inferInstanceAs (Decidable (_ = _))

/-- The stream of a deferred has received a receipt with the payment's id. -/
def Received (s : ClientPaymentHandler β) (d : Nat × Nat) : Prop := Output.receipt d.1 d.2 ∈ s.history

structure Paid (s : ClientPaymentHandler β) : Prop where
  fired : ∀ e ∈ s.fired, s.Received e.1
  collected : ∀ p ∈ s.payments, ∀ d r, (d, some r) ∈ p.paymentsDone.entries → s.Received d
  covers : ∀ p ∈ s.payments, p.paymentsDone.deferreds.map Prod.fst = List.range s.paymentStreams.length
  credited : ∀ readTokens writeTokens ds, Output.addTokens readTokens writeTokens ds ∈ s.history →
    ds.map Prod.fst = List.range s.paymentStreams.length ∧ ∀ d ∈ ds, s.Received d

/-! ### Calls that fire nothing -/

/-- No deferred has fired and no tokens were added between the states. -/
structure Still (s t : ClientPaymentHandler β) : Prop where
  fired : t.fired = s.fired
  payments : t.payments = s.payments
  streams : t.paymentStreams.length = s.paymentStreams.length
  received : ∀ d, s.Received d → t.Received d
  credited : ∀ r w ds, Output.addTokens r w ds ∈ t.history → Output.addTokens r w ds ∈ s.history

instance : IsPreorder (ClientPaymentHandler β) Still where
  refl _ := ⟨rfl, rfl, rfl, fun _ => id, fun _ _ _ => id⟩
  trans _ _ _ h h' := ⟨h'.fired.trans h.fired, h'.payments.trans h.payments, h'.streams.trans h.streams,
    fun d hd => h'.received d (h.received d hd), fun r w ds hw => h.credited r w ds (h'.credited r w ds hw)⟩

theorem Paid.of_still {s t : ClientPaymentHandler β} (h : s.Paid) (hst : Still s t) : t.Paid where
  fired e he := hst.received _ (h.fired e (by rwa [← hst.fired]))
  collected p hp d r he := hst.received _ (h.collected p (by rwa [← hst.payments]) d r he)
  covers p hp := by
    rw [hst.streams]
    exact h.covers p (by rwa [← hst.payments])
  credited r w ds hds := by
    rw [hst.streams]
    obtain ⟨hcovers, hreceived⟩ := h.credited r w ds (hst.credited r w ds hds)
    exact ⟨hcovers, fun d hd => hst.received d (hreceived d hd)⟩

/-- A change that leaves alone what `Still` looks at. -/
theorem still_of_eq {s t : ClientPaymentHandler β} (hfired : t.fired = s.fired)
    (hpayments : t.payments = s.payments) (hstreams : t.paymentStreams.length = s.paymentStreams.length)
    (hhistory : t.history = s.history) : Still s t where
  fired := hfired
  payments := hpayments
  streams := hstreams
  received d hd := by
    unfold Received at hd ⊢
    rwa [hhistory]
  credited r w ds h := by rwa [hhistory] at h

/-- Only stream `i` and the bank may have changed otherwise. -/
structure Within (i : Nat) (s t : ClientPaymentHandler β) : Prop extends Still s t where
  apart : ∀ j, j ≠ i → t.paymentStreams[j]? = s.paymentStreams[j]?

/-- Only stream `i` may have changed otherwise. -/
structure Own (i : Nat) (s t : ClientPaymentHandler β) : Prop extends Within i s t where
  bank : t.bank = s.bank

/-- No bank and no pending payment has changed otherwise. -/
structure Reading (s t : ClientPaymentHandler β) : Prop extends Still s t where
  bank : t.bank = s.bank
  pending : ∀ j : Nat, (t.paymentStreams[j]?).map PaymentStream.pendingPayments =
    (s.paymentStreams[j]?).map PaymentStream.pendingPayments

instance (i : Nat) : IsPreorder (ClientPaymentHandler β) (Within i) where
  refl s := ⟨refl_of Still s, fun _ _ => rfl⟩
  trans _ _ _ h h' := ⟨trans_of Still h.toStill h'.toStill, fun j hj => (h'.apart j hj).trans (h.apart j hj)⟩

instance (i : Nat) : IsPreorder (ClientPaymentHandler β) (Own i) where
  refl s := ⟨refl_of (Within i) s, rfl⟩
  trans _ _ _ h h' := ⟨trans_of (Within i) h.toWithin h'.toWithin, h'.bank.trans h.bank⟩

instance : IsPreorder (ClientPaymentHandler β) Reading where
  refl s := ⟨refl_of Still s, rfl, fun _ => rfl⟩
  trans _ _ _ h h' := ⟨trans_of Still h.toStill h'.toStill, h'.bank.trans h.bank,
    fun j => (h'.pending j).trans (h.pending j)⟩

theorem output_own (i : Nat) {o : Output} (ho : ∀ r w ds, o ≠ .addTokens r w ds) :
    Moves (Own i) (output o : Pay β Unit) := by
  refine .modify fun s => ⟨⟨⟨rfl, rfl, rfl, ?_, ?_⟩, fun _ _ => rfl⟩, rfl⟩
  · intro d hd
    exact List.mem_append_left _ hd
  · intro r w ds h
    rcases List.mem_append.mp h with h | h
    · exact h
    · exact absurd (List.mem_singleton.mp h).symm (ho r w ds)

theorem setStream_own (i : Nat) (f : PaymentStream → PaymentStream) :
    Moves (Own i) (setStream i f : Pay β Unit) := by
  refine .modify fun s => ⟨⟨still_of_eq rfl rfl (List.length_modify _ _ _) rfl, ?_⟩, rfl⟩
  intro j hj
  exact List.getElem?_modify_ne _ _ hj.symm

theorem setStream_still (i : Nat) (f : PaymentStream → PaymentStream) :
    Moves Still (setStream i f : Pay β Unit) :=
  (setStream_own i f).mono fun h => h.toStill

theorem setStream_reading (i : Nat) {f : PaymentStream → PaymentStream}
    (hf : ∀ stream, (f stream).pendingPayments = stream.pendingPayments) :
    Moves Reading (setStream i f : Pay β Unit) := by
  refine .modify fun s => ⟨still_of_eq rfl rfl (List.length_modify _ _ _) rfl, rfl, fun j => ?_⟩
  dsimp only
  rw [List.getElem?_modify]
  cases s.paymentStreams[j]? with
  | none => rfl
  | some stream =>
    simp only [Option.map_eq_map, Option.map_some]
    split
    · rw [hf]
    · rfl

theorem closeCircuit_reading : Moves Reading (closeCircuit : Pay β Unit) :=
  .modify fun _ => ⟨still_of_eq rfl rfl rfl rfl, rfl, fun _ => rfl⟩

theorem addTokens_still (request : TokenRequest) : Moves Still (addTokens request : Pay β Bool) := by
  refine .bind .get fun s => .ite (fun _ => .pure _) fun _ => .ite (fun _ => .throw _) fun _ => ?_
  exact .bind (.modify fun _ => still_of_eq rfl rfl rfl rfl) fun _ => .pure _

theorem readPaymentTokens_reading (env : PaymentEnvironment β) (i : Nat) (msg : Bytes) :
    Moves Reading (readPaymentTokens env i msg) :=
  moves_readPaymentTokens env i closeCircuit_reading (fun _ _ => setStream_reading i fun _ => rfl) msg

theorem popitem_own (env : PaymentEnvironment β) (i : Nat) : Moves (Own i) (popitem env i) := by
  refine .bind (getStream_moves i) fun stream => .bind .get fun s => .bind (.modify fun _ => ?_) fun _ => ?_
  · exact ⟨⟨still_of_eq rfl rfl rfl rfl, fun _ _ => rfl⟩, rfl⟩
  · dsimp only
    split
    · exact .bind (output_own i fun _ _ _ h => by cases h) fun _ => .throw _
    · exact .bind (setStream_own i _) fun _ => .pure _

theorem sendSetups_still (streams : List PaymentStream) : Moves Still (sendSetups streams : Pay β Unit) :=
  moves_sendSetups (fun _ _ _ => (output_own 0 fun _ _ _ h => by cases h).mono fun h => h.toStill) streams

theorem sendSetupMessage_still : Moves Still (sendSetupMessage : Pay β Unit) := by
  refine .bind .get fun s => .when fun _ => .bind (.modify fun _ => ?_) fun _ => sendSetups_still _
  exact still_of_eq rfl rfl rfl rfl

theorem streamSetupReply_still (env : PaymentEnvironment β) (i version : Nat) (msg : Bytes) :
    Moves Still (streamSetupReply env i version msg) := by
  refine .bind (setStream_still _ _) fun _ => .bind ?_ fun valid => .when fun _ => setStream_still _ _
  exact (readPaymentTokens_reading env _ _).mono fun h => h.toStill

theorem handleSetupReply_still (env : PaymentEnvironment β) (msg : Bytes) :
    Moves Still (handleSetupReply env msg) := by
  refine .bind (.attempt _) fun p => .bind (.modify fun _ => still_of_eq rfl rfl rfl rfl) fun _ => ?_
  refine .bind .get fun s => .bind (.attempt _) fun q => .bind (streamSetupReply_still env _ _ _) fun _ => ?_
  refine .bind .get fun t => .when fun _ => ?_
  refine .bind (addTokens_still _) fun started => .ite (fun _ => ?_) fun _ => ?_
  · exact closeCircuit_reading.mono fun h => h.toStill
  · exact .modify fun _ => still_of_eq rfl rfl rfl rfl

theorem tokensAdded_still (request : TokenRequest) (reply : TokenReply) :
    Moves Still (tokensAdded request reply : Pay β Unit) := by
  have hinitial : Moves Still
      (modify fun s : ClientPaymentHandler β => { s with initialTokensAdded := true } : Pay β Unit) :=
    .modify fun _ => still_of_eq rfl rfl rfl rfl
  have hsettle : ∀ reads writes, Moves Still (settleTokens reads writes : Pay β Unit) :=
    fun _ _ => .modify fun _ => still_of_eq rfl rfl rfl rfl
  have hresponse : ∀ read write, Moves Still (handleTokenResponse read write : Pay β Unit) :=
    fun _ _ => .modify fun _ => still_of_eq rfl rfl rfl rfl
  cases request with
  | start =>
    cases reply with
    | values read write => exact .bind hinitial fun _ => .bind (hsettle _ _) fun _ => hresponse _ _
    | nothing => exact .bind hinitial fun _ => hsettle _ _
    | malformed => exact .pure _
  | payment reads writes =>
    cases reply with
    | values read write => exact .bind (hsettle _ _) fun _ => hresponse _ _
    | nothing => exact .pure _
    | malformed => exact .pure _

/-! ### Starting payments -/

theorem getAcoins_supplied {env : PaymentEnvironment β} (i : Nat) {n : Nat} {s : ClientPaymentHandler β}
    (h : supplies env.getAcoins (n + 1) s.bank = true) :
    Outcome (getAcoins env) s
      (fun coins t => coins ≠ [] ∧ supplies env.getAcoins n t.bank = true ∧ Within i s t)
      fun _ => Within i s := by
  have hwithin : ∀ bank, Within i s { s with bank } :=
    fun bank => ⟨still_of_eq rfl rfl rfl rfl, fun _ _ => rfl⟩
  unfold supplies at h
  cases hcoins : env.getAcoins s.bank with
  | error e bank =>
    simp only [Outcome, getAcoins, hcoins]
    exact hwithin bank
  | ok coins bank =>
    rw [hcoins] at h
    simp only [Bool.and_eq_true, decide_eq_true_eq] at h
    simp only [Outcome, getAcoins, hcoins]
    exact ⟨h.1, h.2, hwithin bank⟩

/-- While the wallet supplies coins, the loop ends with a message or raises. -/
theorem payLoop_supplied {env : PaymentEnvironment β} (i paymentId k m : Nat) (msg bankMsg : Bytes)
    {s : ClientPaymentHandler β} (h : supplies env.getAcoins (k + m) s.bank = true) :
    Outcome (payLoop env i paymentId k msg bankMsg) s
      (fun paid t => paid ≠ none ∧ supplies env.getAcoins m t.bank = true ∧ Within i s t)
      fun _ => Within i s := by
  induction k generalizing msg bankMsg s with
  | zero =>
    rw [Nat.zero_add] at h
    exact ⟨Option.some_ne_none _, h, refl_of (Within i) s⟩
  | succ k ih =>
    rw [payLoop, outcome_bind]
    refine (popitem_own env i s).mono (fun p t ht => ?_) fun _ _ ht => ht.toWithin
    rw [← ht.bank, Nat.add_right_comm] at h
    rw [outcome_bind]
    refine (getAcoins_supplied i h).mono (fun coins u hu => ?_) fun _ _ hu =>
      trans_of (Within i) ht.toWithin hu
    obtain ⟨hne, hbank, hwithin⟩ := hu
    have hsu : Within i s u := trans_of (Within i) ht.toWithin hwithin
    cases coins with
    | nil => exact absurd rfl hne
    | cons coin coins =>
      have hspent : Within i s { u with coinsSpent := u.coinsSpent + 1 } := by
        refine trans_of (Within i) hsu ?_
        exact ⟨still_of_eq rfl rfl rfl rfl, fun _ _ => rfl⟩
      dsimp only
      rw [outcome_bind, outcome_modify]
      refine outcome_bind_attempt (fun coinBytes => ?_) fun _ => hspent
      refine outcome_bind_attempt (fun type => ?_) fun _ => hspent
      refine outcome_bind_attempt (fun idBytes => ?_) fun _ => hspent
      rw [outcome_bind]
      refine (output_own i (fun _ _ _ h => by cases h) _).mono (fun _ v hv => ?_) fun _ _ hv =>
        trans_of (Within i) hspent hv.toWithin
      have hsv : Within i s v := trans_of (Within i) hspent hv.toWithin
      refine (ih _ _ ?_).mono (fun paid w hw => ?_) fun _ _ hw => trans_of (Within i) hsv hw
      · rw [hv.bank]
        exact hbank
      · exact ⟨hw.1, hw.2.1, trans_of (Within i) hsv hw.2.2⟩

theorem startBankProcess_supplied {env : PaymentEnvironment β} (i readTokens writeTokens paymentId m : Nat)
    {s : ClientPaymentHandler β}
    (h : supplies env.getAcoins (numPayments readTokens writeTokens + m) s.bank = true) :
    Outcome (startBankProcess env i readTokens writeTokens paymentId) s
      (fun _ t => supplies env.getAcoins m t.bank = true ∧ Within i s t) fun _ => Within i s := by
  unfold startBankProcess
  rw [outcome_bind, outcome_get, outcome_bind]
  refine (output_own i (fun _ _ _ h => by cases h) s).mono (fun _ u hu => ?_) fun _ _ hu => hu.toWithin
  rw [← hu.bank] at h
  refine outcome_bind_attempt (fun msg => ?_) fun _ => hu.toWithin
  refine outcome_bind_attempt (fun number => ?_) fun _ => hu.toWithin
  rw [outcome_bind]
  refine (payLoop_supplied i paymentId _ m msg number h).mono (fun paid t ht => ?_) fun _ _ ht =>
    trans_of (Within i) hu.toWithin ht
  obtain ⟨hpaid, hbank, hwithin⟩ := ht
  have hwithin : Within i s t := trans_of (Within i) hu.toWithin hwithin
  cases paid with
  | none => exact absurd rfl hpaid
  | some paid =>
    have hsend := moves_bankRelay (R := Own i) env (fun _ => ⟨⟨still_of_eq rfl rfl rfl rfl, fun _ _ => rfl⟩, rfl⟩)
      (fun _ _ _ => output_own i fun _ _ _ h => by cases h) i paid
    refine (hsend t).mono (fun _ u hu => ?_) fun _ _ hu => trans_of (Within i) hwithin hu.toWithin
    exact ⟨by rw [hu.bank]; exact hbank, trans_of (Within i) hwithin hu.toWithin⟩

/-- The coins that `send_payment` asks for at once. -/
def paidNow (s : ClientPaymentHandler β) (n i : Nat) : Nat := if s.canPay n i then n else 0

theorem queueOrStart_supplied {env : PaymentEnvironment β} (i readTokens writeTokens curId m : Nat)
    {s : ClientPaymentHandler β}
    (h : supplies env.getAcoins (s.paidNow (numPayments readTokens writeTokens) i + m) s.bank = true) :
    Outcome (queueOrStart env i readTokens writeTokens curId) s
      (fun _ t => supplies env.getAcoins m t.bank = true ∧ Within i s t) fun _ => Within i s := by
  unfold queueOrStart
  rw [outcome_bind]
  cases hi : s.paymentStreams[i]? with
  | none => exact (outcome_getStream_none hi).mpr (refl_of (Within i) s)
  | some stream =>
    rw [outcome_getStream hi, outcome_ite]
    simp only [paidNow, canPay, hi, decide_eq_true_eq] at h
    split
    · rename_i hfew
      rw [if_neg (Nat.not_le.mpr hfew), Nat.zero_add] at h
      have hqueue : Moves (Own i) (do
          output (.queued i curId)
          setStream i fun stream => { stream with
            pendingPayments := stream.pendingPayments ++ [(readTokens, writeTokens, curId)] } : Pay β Unit) :=
        .bind (output_own i fun _ _ _ h => by cases h) fun _ => setStream_own i _
      refine (hqueue s).mono (fun _ t ht => ?_) fun _ _ ht => ht.toWithin
      exact ⟨by rw [ht.bank]; exact h, ht.toWithin⟩
    · rename_i henough
      rw [if_pos (Nat.not_lt.mp henough)] at h
      exact startBankProcess_supplied i readTokens writeTokens curId m h

theorem sendPayment_supplied {env : PaymentEnvironment β} (readTokens writeTokens i m : Nat)
    {s : ClientPaymentHandler β}
    (h : supplies env.getAcoins (s.paidNow (numPayments readTokens writeTokens) i + m) s.bank = true) :
    Outcome (sendPayment env readTokens writeTokens i) s
      (fun d t => d.1 = i ∧ supplies env.getAcoins m t.bank = true ∧ Within i s t) fun _ => Within i s := by
  unfold sendPayment
  rw [outcome_bind]
  refine (getStream_moves (R := Eq) i s).mono ?_ ?_
  · rintro stream _ rfl
    dsimp only
    rw [outcome_bind, setStream, outcome_modify, outcome_ite]
    generalize ht : ({ s with paymentStreams := s.paymentStreams.modify i fun stream' => { stream' with
      currentRequestId := stream'.currentRequestId + 1
      paymentDeferreds := stream'.paymentDeferreds ++ [stream.currentRequestId] } } :
        ClientPaymentHandler β) = t
    have hown : Own i s t := by
      rw [← ht]
      exact setStream_own i _ s
    have hcan : t.canPay (numPayments readTokens writeTokens) i =
        s.canPay (numPayments readTokens writeTokens) i := by
      rw [← ht]
      simp only [canPay, List.getElem?_modify_eq]
      cases s.paymentStreams[i]? <;> rfl
    split
    · exact hown.toWithin
    · rw [paidNow, ← hcan, ← paidNow, ← hown.bank] at h
      rw [outcome_bind]
      refine (queueOrStart_supplied i readTokens writeTokens _ m h).mono (fun _ u hu => ?_) fun _ _ hu =>
        trans_of (Within i) hown.toWithin hu
      exact ⟨rfl, hu.1, trans_of (Within i) hown.toWithin hu.2⟩
  · rintro _ _ rfl
    exact refl_of (Within i) s

theorem sendPayments_supplied {env : PaymentEnvironment β} (readTokens writeTokens : Nat)
    {streams : List Nat} (hnodup : streams.Nodup) {s : ClientPaymentHandler β}
    (h : supplies env.getAcoins (numPayments readTokens writeTokens *
      streams.countP (s.canPay (numPayments readTokens writeTokens))) s.bank = true) :
    Outcome (sendPayments env readTokens writeTokens streams) s
      (fun ds t => ds.map Prod.fst = streams ∧ Still s t) fun _ => Still s := by
  induction streams generalizing s with
  | nil => exact ⟨rfl, refl_of Still s⟩
  | cons i streams ih =>
    obtain ⟨hi, hnodup⟩ := List.nodup_cons.mp hnodup
    have hcount : numPayments readTokens writeTokens *
        (i :: streams).countP (s.canPay (numPayments readTokens writeTokens)) =
        s.paidNow (numPayments readTokens writeTokens) i + numPayments readTokens writeTokens *
          streams.countP (s.canPay (numPayments readTokens writeTokens)) := by
      rw [List.countP_cons, Nat.mul_add, Nat.add_comm, paidNow]
      split <;> simp
    rw [hcount] at h
    rw [sendPayments, outcome_bind]
    refine (sendPayment_supplied readTokens writeTokens i _ h).mono (fun d t ht => ?_) fun _ _ ht => ht.toStill
    obtain ⟨hd, hbank, hwithin⟩ := ht
    -- The later streams have not changed.
    have hsame : streams.countP (t.canPay (numPayments readTokens writeTokens)) =
        streams.countP (s.canPay (numPayments readTokens writeTokens)) := by
      apply List.countP_congr
      intro j hj
      have hne : j ≠ i := fun heq => hi (heq ▸ hj)
      simp only [canPay, hwithin.apart j hne]
    rw [← hsame] at hbank
    rw [outcome_bind]
    refine (ih hnodup hbank).mono (fun ds u hu => ?_) fun _ _ hu => trans_of Still hwithin.toStill hu
    refine ⟨?_, trans_of Still hwithin.toStill hu.2⟩
    rw [List.map_cons, hd, hu.1]

theorem startPending_supplied {env : PaymentEnvironment β} (i : Nat) {s : ClientPaymentHandler β}
    (h : supplies env.getAcoins (s.pendingCoins i) s.bank = true) :
    Outcome (startPending env i) s (fun _ => Still s) fun _ => Still s := by
  unfold startPending
  rw [outcome_bind]
  cases hi : s.paymentStreams[i]? with
  | none => exact (outcome_getStream_none hi).mpr (refl_of Still s)
  | some stream =>
    rw [outcome_getStream hi]
    cases hpending : stream.pendingPayments with
    | nil => exact refl_of Still s
    | cons payment pending =>
      obtain ⟨readTokens, writeTokens, paymentId⟩ := payment
      simp only [pendingCoins, hi, Option.map_some, hpending] at h
      rw [outcome_when]
      split
      · rw [outcome_bind]
        refine (setStream_own i _ s).mono (fun _ t ht => ?_) fun _ _ ht => ht.toStill
        rw [← ht.bank] at h
        refine (startBankProcess_supplied i readTokens writeTokens paymentId 0 h).mono ?_ ?_
        · intro _ u hu
          exact trans_of Still ht.toStill hu.2.toStill
        · intro _ u hu
          exact trans_of Still ht.toStill hu.toStill
      · exact refl_of Still s

/-! ### Receipts and credits -/

theorem Paid.modify {s : ClientPaymentHandler β} (h : s.Paid) (k : Nat) {f : Payment → Payment}
    (hf : ∀ p, (f p).paymentsDone.deferreds = p.paymentsDone.deferreds)
    (hentries : ∀ p d r, (d, some r) ∈ (f p).paymentsDone.entries →
      (d, some r) ∈ p.paymentsDone.entries ∨ s.Received d) :
    Paid { s with payments := s.payments.modify k f } where
  fired := h.fired
  collected p hp d r he := by
    rcases mem_modify hp with hp | ⟨q, hq, rfl⟩
    · exact h.collected p hp d r he
    · rcases hentries q d r he with he | hd
      · exact h.collected q hq d r he
      · exact hd
  covers p hp := by
    rcases mem_modify hp with hp | ⟨q, hq, rfl⟩
    · exact h.covers p hp
    · rw [hf]
      exact h.covers q hq
  credited := h.credited

/-- Tokens are added for a payment of which every receipt is there. -/
theorem Paid.credit {s : ClientPaymentHandler β} (h : s.Paid) (readTokens writeTokens : Nat)
    {ds : List (Nat × Nat)} (hcovers : ds.map Prod.fst = List.range s.paymentStreams.length)
    (hreceived : ∀ d ∈ ds, s.Received d) :
    Paid { s with history := s.history ++ [.addTokens readTokens writeTokens ds] } where
  fired e he := List.mem_append_left _ (h.fired e he)
  collected p hp d r he := List.mem_append_left _ (h.collected p hp d r he)
  covers := h.covers
  credited r w ds' hds := by
    rcases List.mem_append.mp hds with hds | hds
    · obtain ⟨hcovers', hreceived'⟩ := h.credited r w ds' hds
      exact ⟨hcovers', fun d hd => List.mem_append_left _ (hreceived' d hd)⟩
    · cases List.mem_singleton.mp hds
      exact ⟨hcovers, fun d hd => List.mem_append_left _ (hreceived d hd)⟩

theorem closeCircuit_paid {s : ClientPaymentHandler β} (h : s.Paid) :
    Outcome closeCircuit s (fun _ => Paid) fun _ => Paid :=
  (closeCircuit_reading s).mono (fun _ _ hst => h.of_still hst.toStill) fun _ _ hst => h.of_still hst.toStill

theorem allReceiptsReceived_paid {s : ClientPaymentHandler β} (h : s.Paid) (k : Nat) {payment : Payment}
    (hcovers : payment.paymentsDone.deferreds.map Prod.fst = List.range s.paymentStreams.length)
    (hreceived : ∀ d ∈ payment.paymentsDone.deferreds, s.Received d)
    (results : List (Except PyError PaymentResult)) :
    Outcome (allReceiptsReceived k payment (some results)) s (fun _ => Paid) fun _ => Paid := by
  cases results with
  | nil => exact closeCircuit_paid h
  | cons result results =>
    rw [allReceiptsReceived, outcome_ite]
    · split
      · exact closeCircuit_paid h
      · simp only [output, outcome_bind, outcome_modify]
        have hevent := h.modify k (f := fun p => { p with event := false }) (fun _ => rfl)
          fun _ _ _ he => Or.inl he
        have hcredit := hevent.credit payment.readTokens payment.writeTokens hcovers hreceived
        refine (addTokens_still _ _).mono ?_ ?_
        · exact fun _ _ hst => hcredit.of_still hst
        · exact fun _ _ hst => hcredit.of_still hst
    · intro hnil
      cases hnil

theorem listFired_paid {s : ClientPaymentHandler β} (h : s.Paid) (k : Nat) {payment : Payment}
    (hcovers : payment.paymentsDone.deferreds.map Prod.fst = List.range s.paymentStreams.length)
    (hcollected : ∀ d r, (d, some r) ∈ payment.paymentsDone.entries → s.Received d) :
    Outcome (listFired k payment) s (fun _ => Paid) fun _ => Paid := by
  unfold listFired
  split
  · exact h
  · rename_i results hresults
    rw [outcome_rescue]
    refine (allReceiptsReceived_paid h k hcovers ?_ results).mono (fun _ _ ht => ht) fun _ _ ht => ht
    intro d hd
    obtain ⟨r, -, hr⟩ := DeferredList.exists_result hresults hd
    exact hcollected d r hr

theorem fire_paid {s : ClientPaymentHandler β} (h : s.Paid) {d : Nat × Nat} (hd : s.Received d)
    (result : Except PyError PaymentResult) :
    Outcome (fire d result) s (fun _ => Paid) fun _ => Paid := by
  simp only [fire, outcome_bind, outcome_modify, outcome_get]
  generalize addErrback genericErrorHandler result = result
  have hfired : Paid { s with fired := s.fired ++ [(d, result)] } := by
    refine ⟨fun e he => ?_, h.collected, h.covers, h.credited⟩
    rcases List.mem_append.mp he with he | he
    · exact h.fired e he
    · rw [List.mem_singleton.mp he]
      exact hd
  split
  · exact hfired
  · rename_i k _
    simp only [outcome_bind, outcome_modify, outcome_get]
    have hcollect := hfired.modify k
      (f := fun payment => { payment with paymentsDone := payment.paymentsDone.collect d result })
      (fun _ => DeferredList.deferreds_collect _ _ _) fun p d' r he => by
        rcases DeferredList.mem_entries_collect he with he | he
        · exact Or.inl he
        · cases he
          exact Or.inr hd
    split
    · exact hcollect
    · rename_i payment hpayment
      have hmem := List.mem_of_getElem? hpayment
      exact listFired_paid hcollect k (hcollect.covers payment hmem) (hcollect.collected payment hmem)

theorem finishPayment_paid {s : ClientPaymentHandler β} (h : s.Paid) {i paymentId : Nat}
    (hd : s.Received (i, paymentId)) (result : Except PyError PaymentResult) :
    Outcome (finishPayment i paymentId result) s (fun _ => Paid) fun _ => Paid := by
  unfold finishPayment
  rw [outcome_bind]
  refine (getStream_moves (R := Still) i s).mono (fun stream t ht => ?_) fun _ _ ht => h.of_still ht
  rw [outcome_ite]
  split
  · rw [outcome_bind]
    refine (setStream_still i _ t).mono (fun _ u hu => ?_) fun _ _ hu => (h.of_still ht).of_still hu
    exact fire_paid ((h.of_still ht).of_still hu) (hu.received _ (ht.received _ hd)) result
  · exact h.of_still ht

theorem streamReceipt_paid {env : PaymentEnvironment β} {s : ClientPaymentHandler β} (h : s.Paid) (i : Nat)
    (hsupplies : supplies env.getAcoins (s.pendingCoins i) s.bank = true) (msg : Bytes) :
    Outcome (streamReceipt env i msg) s (fun _ => Paid) fun _ => Paid := by
  unfold streamReceipt
  refine outcome_bind_attempt (fun p => ?_) fun _ => h
  obtain ⟨ourId, msg⟩ := p
  dsimp only
  rw [outcome_bind]
  refine (readPaymentTokens_reading env i msg s).mono (fun valid t ht => ?_) fun _ _ ht => h.of_still ht.toStill
  have htpaid := h.of_still ht.toStill
  rw [outcome_when]
  split
  · rw [output, outcome_bind, outcome_modify, outcome_bind]
    generalize hu : ({ t with history := t.history ++ [.receipt i ourId] } : ClientPaymentHandler β) = u
    have hown : Own i t u := by
      rw [← hu]
      exact output_own i (fun _ _ _ h => by cases h) t
    have hpaid := htpaid.of_still hown.toStill
    have hreceived : u.Received (i, ourId) := by
      rw [← hu]
      exact List.mem_append_right _ (List.mem_singleton.mpr rfl)
    have hpending : u.pendingCoins i = s.pendingCoins i := by
      rw [← hu]
      simp only [pendingCoins, ht.pending i]
    rw [← hpending, ← ht.bank, ← hown.bank] at hsupplies
    refine (startPending_supplied i hsupplies).mono (fun _ v hv => ?_) fun _ _ hv => hpaid.of_still hv
    exact finishPayment_paid (hpaid.of_still hv) (hv.received _ hreceived) _
  · exact htpaid

theorem resultOf_received {s : ClientPaymentHandler β} (h : s.Paid) {d : Nat × Nat}
    {r : Except PyError PaymentResult} (hr : s.resultOf d = some r) : s.Received d := by
  obtain ⟨e, he, -⟩ := Option.map_eq_some_iff.mp hr
  have hkey : e.1 = d := by simpa using List.find?_some he
  rw [← hkey]
  exact h.fired e (List.mem_of_find?_eq_some he)

theorem awaitReceipts_paid {s : ClientPaymentHandler β} (h : s.Paid) (readTokens writeTokens : Nat)
    {ds : List (Nat × Nat)} (hcovers : ds.map Prod.fst = List.range s.paymentStreams.length) :
    Outcome (awaitReceipts readTokens writeTokens ds) s (fun _ => Paid) fun _ => Paid := by
  simp only [awaitReceipts, outcome_bind, outcome_get, outcome_modify]
  have hcollected : ∀ d r, (d, some r) ∈ (DeferredList.new ds s.resultOf).entries → s.Received d := by
    intro d r he
    obtain ⟨d', -, heq⟩ := List.mem_map.mp he
    simp only [Prod.mk.injEq] at heq
    obtain ⟨rfl, hr⟩ := heq
    exact resultOf_received h hr
  have hcovers' : (DeferredList.new ds s.resultOf).deferreds.map Prod.fst =
      List.range s.paymentStreams.length := by
    rw [DeferredList.deferreds_new]
    exact hcovers
  refine listFired_paid ?_ _ ?_ ?_
  · refine ⟨h.fired, fun p hp d r he => ?_, fun p hp => ?_, h.credited⟩
    · rcases List.mem_append.mp hp with hp | hp
      · exact h.collected p hp d r he
      · rw [List.mem_singleton.mp hp] at he
        exact hcollected d r he
    · rcases List.mem_append.mp hp with hp | hp
      · exact h.covers p hp
      · rw [List.mem_singleton.mp hp]
        exact hcovers'
  · exact hcovers'
  · exact hcollected

theorem sendPaymentRequest_paid {env : PaymentEnvironment β} {s : ClientPaymentHandler β} (h : s.Paid)
    (readTokens writeTokens : Nat)
    (hsupplies : s.WalletSupplies env (.sendPaymentRequest readTokens writeTokens)) :
    Outcome (sendPaymentRequest env readTokens writeTokens) s (fun _ => Paid) fun _ => Paid := by
  unfold sendPaymentRequest
  rw [outcome_bind, outcome_get, outcome_ite]
  split
  · exact h
  · rw [outcome_ite]
    split
    · rw [outcome_bind]
      refine (sendSetupMessage_still s).mono (fun _ t ht => ?_) fun _ _ ht => h.of_still ht
      refine (h.of_still ht).of_still ?_
      exact still_of_eq rfl rfl rfl rfl
    · rename_i hsetup
      rw [outcome_when]
      split
      · rename_i hopen
        have hasked : s.setupDone = true ∧ (!s.circDone) = true := ⟨by simpa using hsetup, hopen⟩
        simp only [WalletSupplies, asked, if_pos hasked] at hsupplies
        rw [outcome_bind]
        refine (sendPayments_supplied readTokens writeTokens List.nodup_range hsupplies).mono
          (fun ds t ht => ?_) fun _ _ ht => h.of_still ht
        exact awaitReceipts_paid (h.of_still ht.2) readTokens writeTokens (by rw [ht.1, ht.2.streams])
      · exact h

theorem handleReceipt_paid {env : PaymentEnvironment β} {s : ClientPaymentHandler β} (h : s.Paid)
    (msg : Bytes) (hsupplies : s.WalletSupplies env (.receipt msg)) :
    Outcome (handleReceipt env msg) s (fun _ => Paid) fun _ => Paid := by
  unfold handleReceipt
  cases hversion : Basic.readByte msg with
  | error e => exact h
  | ok p =>
    obtain ⟨version, rest⟩ := p
    cases hstream : s.getPaymentStream rest with
    | error e =>
      simp only [outcome_bind, outcome_attempt, outcome_get, hstream]
      exact h
    | ok q =>
      obtain ⟨i, rest'⟩ := q
      simp only [outcome_bind, outcome_attempt, outcome_get, hstream]
      simp only [WalletSupplies, asked, hversion, PyExcept.ok_bind, hstream] at hsupplies
      exact streamReceipt_paid h i hsupplies rest'

theorem step_paid {env : PaymentEnvironment β} {s t : ClientPaymentHandler β} {a : Action β} (h : s.Paid)
    (hsupplies : s.WalletSupplies env a) (hstep : step env s a = some t) : t.Paid := by
  cases a with
  | sendSetupMessage =>
    cases hstep
    exact h.of_still (sendSetupMessage_still.finish s)
  | setupTimeout =>
    obtain rfl := step_setupTimeout hstep
    exact outcome_finish.mp (closeCircuit_paid h)
  | setupReply msg =>
    cases hstep
    exact h.of_still ((handleSetupReply_still env msg).finish s)
  | sendPaymentRequest readTokens writeTokens =>
    cases hstep
    exact outcome_finish.mp (sendPaymentRequest_paid h readTokens writeTokens hsupplies)
  | receipt msg =>
    cases hstep
    exact outcome_finish.mp (handleReceipt_paid h msg hsupplies)
  | paymentTimeout k =>
    obtain rfl := step_paymentTimeout hstep
    have hevent := h.modify k (f := fun p => { p with event := false }) (fun _ => rfl)
      fun _ _ _ he => Or.inl he
    exact outcome_finish.mp (closeCircuit_paid hevent)
  | tokensAdded k reply =>
    obtain ⟨request, -, rfl⟩ := Option.map_eq_some_iff.mp hstep
    have herased : Still s { s with tokenRequests := s.tokenRequests.eraseIdx k } :=
      still_of_eq rfl rfl rfl rfl
    exact h.of_still (trans_of Still herased ((tokensAdded_still request reply).finish _))
  | bank bank =>
    cases hstep
    exact h.of_still (still_of_eq rfl rfl rfl rfl)
  | torReady isReady =>
    cases hstep
    exact h.of_still (still_of_eq rfl rfl rfl rfl)
  | circuitDone =>
    cases hstep
    exact h.of_still (still_of_eq rfl rfl rfl rfl)
  | circuitClosed =>
    cases hstep
    exact h.of_still (still_of_eq rfl rfl rfl rfl)

/-- In every run in which the wallet supplies the coins that are asked for, tokens are added for
a payment only when each stream has received the receipt with the id that the payment has
there. -/
theorem credited_only_when_received (env : PaymentEnvironment β) (bank : β) (finalPath : List Bytes)
    {as : List (Action β)} {s : ClientPaymentHandler β}
    (h : Run (step env) (WalletSupplies env) (new env bank finalPath) as s)
    {readTokens writeTokens : Nat} {ds : List (Nat × Nat)}
    (hcredit : Output.addTokens readTokens writeTokens ds ∈ s.history) :
    ds.map Prod.fst = List.range s.paymentStreams.length ∧
      ∀ d ∈ ds, Output.receipt d.1 d.2 ∈ s.history := by
  have hnew : (new env bank finalPath).Paid := by
    refine ⟨fun e he => ?_, fun p hp => ?_, fun p hp => ?_, fun r w ds hds => ?_⟩
    · cases he
    · cases hp
    · cases hp
    · cases hds
  exact (h.invariant step_paid hnew).credited readTokens writeTokens ds hcredit

/-- Payments out of the wallet of the bank connection, with signatures that are all good and no
encryption. -/
def exampleEnvironment : PaymentEnvironment Client.BankConnection where
  getAcoins := Client.BankConnection.getAcoins Client.exampleEnvironment 1 true
  verify _ _ _ := .ok true
  encrypt _ msg := msg
  popitem _ := 0
  values streams := streams
  values_perm _ := .refl _

/-- A bank connection that is logged in and holds one coin. -/
def exampleBank : Client.BankConnection :=
  (exec (Client.BankConnection.step Client.exampleEnvironment) .new
    (Client.loggingIn 0 2 ++ [.connectionLost 0,
      .addAcoin { receipt := List.replicate 32 7, interval := 2, signature := [], value := 1 }])).getD .new

def exampleRelay : Bytes := List.replicate 20 5

/-- One token of a relay. -/
def exampleTokens : Bytes := 1 :: List.replicate 228 0

/-- The setup of a circuit of one hop, and one payment. -/
def exampleRequest : List (Action Client.BankConnection) :=
  [.sendSetupMessage, .setupReply (1 :: exampleRelay ++ exampleTokens),
    .sendPaymentRequest Globals.CELLS_PER_PAYMENT 0]

theorem credited_only_when_received_one_hop :
    ∃ s, Run (step exampleEnvironment) (WalletSupplies exampleEnvironment)
        (new exampleEnvironment exampleBank [exampleRelay])
        (exampleRequest ++ [.receipt (1 :: exampleRelay ++ packBE 4 0 ++ exampleTokens)]) s ∧
      Output.addTokens Globals.CELLS_PER_PAYMENT 0 [(0, 0)] ∈ s.history ∧
      ([(0, 0)].map Prod.fst = List.range s.paymentStreams.length ∧
        ∀ d ∈ [(0, 0)], Output.receipt d.1 d.2 ∈ s.history) := by
  have hend : (exec (step exampleEnvironment) (new exampleEnvironment exampleBank [exampleRelay])
      (exampleRequest ++ [.receipt (1 :: exampleRelay ++ packBE 4 0 ++ exampleTokens)])).any (fun s =>
        decide (Output.addTokens Globals.CELLS_PER_PAYMENT 0 [(0, 0)] ∈ s.history)) = true := by
    decide
  have hok : EachStep (step exampleEnvironment) (WalletSupplies exampleEnvironment)
      (new exampleEnvironment exampleBank [exampleRelay])
      (exampleRequest ++ [.receipt (1 :: exampleRelay ++ packBE 4 0 ++ exampleTokens)]) := by
    decide
  obtain ⟨s, hrun, hdecide⟩ := exists_run hend hok
  have hcredit := of_decide_eq_true hdecide
  exact ⟨s, hrun, hcredit,
    credited_only_when_received exampleEnvironment exampleBank [exampleRelay] hrun hcredit⟩

/-- With an empty wallet the payment fails at its only hop, and tokens are added for it. -/
theorem unpaid_request_credited :
    ∃ s, Run (step exampleEnvironment) (fun _ _ => True)
        (new exampleEnvironment Client.BankConnection.new [exampleRelay]) exampleRequest s ∧
      s.paymentStreams.length = 1 ∧
      Output.addTokens Globals.CELLS_PER_PAYMENT 0 [(0, 0)] ∈ s.history ∧
      ∀ i ourId, Output.receipt i ourId ∉ s.history := by
  have hend : (exec (step exampleEnvironment)
      (new exampleEnvironment Client.BankConnection.new [exampleRelay]) exampleRequest).any (fun s =>
        decide (s.paymentStreams.length = 1 ∧
          Output.addTokens Globals.CELLS_PER_PAYMENT 0 [(0, 0)] ∈ s.history) &&
        s.history.all fun
          | .receipt _ _ => false
          | _ => true) = true := by
    decide
  obtain ⟨s, hrun, hdecide⟩ := exists_run hend (eachStep_true _ _)
  rw [Bool.and_eq_true] at hdecide
  obtain ⟨hcredit, hnone⟩ := hdecide
  obtain ⟨hlength, hcredit⟩ := of_decide_eq_true hcredit
  refine ⟨s, hrun, hlength, hcredit, fun i ourId h => ?_⟩
  have hfalse := List.all_eq_true.mp hnone _ h
  cases hfalse

end ClientPaymentHandler

end BitBlinder.Tor
