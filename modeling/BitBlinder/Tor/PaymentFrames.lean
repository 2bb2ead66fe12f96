import BitBlinder.Runs
import BitBlinder.Tor.ClientPayment

/-!
# What payments leave alone

Rules for a preorder `R` on the states of a payment handler. The merchant
tokens in a message are read by a loop that may stop at any of them; what it
stores and how it ends is a function of the message alone. A paying `R` ignores
the tokens, the waiting payments and the coins, and is kept when a payment gets
its id and when its deferred fires; the rules derive what such an `R` needs of
the calls that pay.
-/

namespace BitBlinder.Tor

set_option autoImplicit false

open Struct Effects

/-- The tokens that the loop of `read_payment_tokens` stores, and how it ends. A token whose
signature is wrong is stored when the circuit is done. -/
def tokensRead (verify : Bytes → Bytes → PyExcept Bool) (circDone : Bool) (tokenSize : Nat) :
    Nat → Bytes → List (Nat × Bytes) × PyExcept Bool
  | 0, _ => ([], .ok true)
  | fuel + 1, msg =>
    if msg = [] then
      ([], .ok true)
    else
      match ClientPaymentHandler.unpackToken (msg.take tokenSize) with
      | .error e => ([], .error e)
      | .ok (requestId, token, tokenSig) =>
        match verify token tokenSig with
        | .error e => ([], .error e)
        | .ok valid =>
          if !valid ∧ !circDone then
            ([], .ok false)
          else
            ((requestId, token) :: (tokensRead verify circDone tokenSize fuel (msg.drop tokenSize)).1,
              (tokensRead verify circDone tokenSize fuel (msg.drop tokenSize)).2)

/-- The tokens in a message. -/
def paymentTokensRead (verify : Bytes → Bytes → PyExcept Bool) (circDone : Bool) (msg : Bytes) :
    List (Nat × Bytes) × PyExcept Bool :=
  match Basic.readByte msg with
  | .error e => ([], .error e)
  | .ok (numTokens, msg) =>
    if numTokens = 0 then
      ([], .error .zeroDivisionError)
    else if msg.length % numTokens ≠ 0 then
      ([], .error (.assertionError "bad payment token message"))
    else
      tokensRead verify circDone (msg.length / numTokens) msg.length msg

namespace PaymentStream

def storeTokens (tokens : List (Nat × Bytes)) (stream : PaymentStream) : PaymentStream :=
  { stream with paymentTokens := tokens.foldl (fun stored e => stored.insert e.1 e.2) stream.paymentTokens }

end PaymentStream

namespace ClientPaymentHandler
variable {β : Type}

section
variable {s : ClientPaymentHandler β} {i : Nat} {Q : PaymentStream → ClientPaymentHandler β → Prop}
  {E : PyError → ClientPaymentHandler β → Prop}

theorem outcome_getStream {stream : PaymentStream} (h : s.paymentStreams[i]? = some stream) :
    Outcome (getStream i) s Q E ↔ Q stream s := by
  rw [getStream, outcome_bind, outcome_get, h, outcome_pure]

theorem outcome_getStream_none (h : s.paymentStreams[i]? = none) :
    Outcome (getStream i) s Q E ↔ E .keyError s := by
  rw [getStream, outcome_bind, outcome_get, h, outcome_throw]

end

/-- The state after tokens of stream `i` were read. -/
def stored (s : ClientPaymentHandler β) (i : Nat) (tokens : List (Nat × Bytes)) (verdict : PyExcept Bool) :
    ClientPaymentHandler β :=
  { s with
    paymentStreams := s.paymentStreams.modify i (PaymentStream.storeTokens tokens)
    circDone := s.circDone || decide (verdict = .ok false) }

/-- `readTokens` and `readPaymentTokens` end as `tokensRead` says. -/
def ReadsAs (s : ClientPaymentHandler β) (i : Nat) (reading : List (Nat × Bytes) × PyExcept Bool)
    (x : Pay β Bool) : Prop :=
  Outcome x s (fun valid t => reading.2 = .ok valid ∧ t = s.stored i reading.1 reading.2)
    fun e t => reading.2 = .error e ∧ t = s.stored i reading.1 reading.2

theorem stored_nil {s : ClientPaymentHandler β} {i : Nat} {verdict : PyExcept Bool} (h : verdict ≠ .ok false) :
    s.stored i [] verdict = s := by
  have hid : s.paymentStreams.modify i (PaymentStream.storeTokens []) = s.paymentStreams :=
    List.modify_id i s.paymentStreams
  simp [stored, hid, h]

theorem stored_cons (s : ClientPaymentHandler β) (i requestId : Nat) (token : Bytes) (tokens : List (Nat × Bytes))
    (verdict : PyExcept Bool) :
    stored { s with paymentStreams := s.paymentStreams.modify i fun stream =>
        { stream with paymentTokens := stream.paymentTokens.insert requestId token } } i tokens verdict =
      s.stored i ((requestId, token) :: tokens) verdict := by
  simp only [stored, List.modify_modify_eq, Function.comp_def]
  rfl

theorem readTokens_readsAs (env : PaymentEnvironment β) (i tokenSize fuel : Nat) (msg : Bytes)
    {s : ClientPaymentHandler β} {stream : PaymentStream} (hi : s.paymentStreams[i]? = some stream) :
    s.ReadsAs i (tokensRead (env.verify stream.hexId) s.circDone tokenSize fuel msg)
      (readTokens env i tokenSize fuel msg) := by
  induction fuel generalizing msg s stream with
  | zero => exact ⟨rfl, (stored_nil (by simp [tokensRead])).symm⟩
  | succ fuel ih =>
    unfold ReadsAs tokensRead readTokens
    rw [outcome_ite]
    split
    · exact ⟨rfl, (stored_nil (by simp)).symm⟩
    · rw [outcome_bind, outcome_getStream hi, outcome_bind, outcome_attempt]
      cases unpackToken (msg.take tokenSize) with
      | error e => exact ⟨rfl, (stored_nil (by simp)).symm⟩
      | ok p =>
        obtain ⟨requestId, token, tokenSig⟩ := p
        dsimp only
        rw [outcome_bind, outcome_attempt]
        cases env.verify stream.hexId token tokenSig with
        | error e => exact ⟨rfl, (stored_nil (by simp)).symm⟩
        | ok valid =>
          dsimp only
          rw [outcome_bind, outcome_get, outcome_ite]
          split
          · refine ⟨rfl, ?_⟩
            have hid : s.paymentStreams.modify i (PaymentStream.storeTokens []) = s.paymentStreams :=
              List.modify_id i s.paymentStreams
            simp [stored, hid]
          · rw [outcome_bind, setStream, outcome_modify]
            -- The first token is in the stream when the rest is read.
            have hnext : (s.paymentStreams.modify i fun stream =>
                { stream with paymentTokens := stream.paymentTokens.insert requestId token })[i]? =
                some { stream with paymentTokens := stream.paymentTokens.insert requestId token } := by
              simp [hi]
            refine (ih (msg.drop tokenSize) (s := { s with paymentStreams := _ }) hnext).mono ?_ ?_
            · rintro valid t ⟨hvalid, rfl⟩
              exact ⟨hvalid, stored_cons s i requestId token _ _⟩
            · rintro e t ⟨he, rfl⟩
              exact ⟨he, stored_cons s i requestId token _ _⟩

theorem readPaymentTokens_readsAs (env : PaymentEnvironment β) (i : Nat) (msg : Bytes)
    {s : ClientPaymentHandler β} {stream : PaymentStream} (hi : s.paymentStreams[i]? = some stream) :
    s.ReadsAs i (paymentTokensRead (env.verify stream.hexId) s.circDone msg) (readPaymentTokens env i msg) := by
  unfold ReadsAs paymentTokensRead readPaymentTokens
  rw [outcome_bind, outcome_attempt]
  cases Basic.readByte msg with
  | error e => exact ⟨rfl, (stored_nil (by simp)).symm⟩
  | ok p =>
    dsimp only
    rw [outcome_ite]
    split
    · exact ⟨rfl, (stored_nil (by simp)).symm⟩
    · rw [outcome_ite]
      split
      · exact ⟨rfl, (stored_nil (by simp)).symm⟩
      · exact readTokens_readsAs env i _ _ _ hi

/-! ### Setup replies and receipts -/

/-- The stream that a message is for, and the rest of the message. -/
def addressee (s : ClientPaymentHandler β) (msg : Bytes) : PyExcept (Nat × Bytes) := do
  let (_, msg) ← Basic.readByte msg
  s.getPaymentStream msg

/-- The tokens for stream `i` in a message. -/
def tokensFor (env : PaymentEnvironment β) (s : ClientPaymentHandler β) (i : Nat) (msg : Bytes) :
    List (Nat × Bytes) × PyExcept Bool :=
  match s.paymentStreams[i]? with
  | none => ([], .error .keyError)
  | some stream => paymentTokensRead (env.verify stream.hexId) s.circDone msg

/-- How reading the tokens of a setup reply ends. -/
def setupVerdict (env : PaymentEnvironment β) (s : ClientPaymentHandler β) (msg : Bytes) : PyExcept Bool := do
  let (i, msg) ← s.addressee msg
  (s.tokensFor env i msg).2

/-- How reading the tokens of a receipt ends. -/
def receiptVerdict (env : PaymentEnvironment β) (s : ClientPaymentHandler β) (msg : Bytes) : PyExcept Bool := do
  let (i, msg) ← s.addressee msg
  let (_, msg) ← Basic.readLong msg
  (s.tokensFor env i msg).2

/-- All streams but the one that a message is for are set up. -/
def othersSetUp (s : ClientPaymentHandler β) (msg : Bytes) : Bool :=
  match s.addressee msg with
  | .error _ => false
  | .ok (i, _) => (s.paymentStreams.eraseIdx i).all PaymentStream.setupDone

/-- A setup reply that gives every stream its tokens, on an open circuit. -/
def CompletesSetup (env : PaymentEnvironment β) (s : ClientPaymentHandler β) (msg : Bytes) : Prop :=
  s.circDone = false ∧ s.isReady = true ∧ s.setupVerdict env msg = .ok true ∧ s.othersSetUp msg = true

instance (env : PaymentEnvironment β) (s : ClientPaymentHandler β) (msg : Bytes) :
    Decidable (s.CompletesSetup env msg) := inferInstanceAs (Decidable (_ ∧ _))

theorem getPaymentStream_ok {s : ClientPaymentHandler β} {msg rest : Bytes} {i : Nat}
    (h : s.getPaymentStream msg = .ok (i, rest)) : ∃ stream, s.paymentStreams[i]? = some stream := by
  obtain ⟨⟨hexId, msg'⟩, -, h⟩ := PyExcept.bind_eq_ok h
  dsimp only at h
  split at h
  · cases h
  · rename_i j hj
    cases h
    obtain ⟨hlt, -⟩ := List.findIdx?_eq_some_iff_getElem.mp hj
    exact ⟨_, List.getElem?_eq_getElem hlt⟩

/-- For each stream, the ids whose deferreds wait, and the next id. -/
def streamIds (streams : List PaymentStream) : List (List Nat × Nat) :=
  streams.map fun stream => (stream.paymentDeferreds, stream.currentRequestId)

theorem streamIds_modify (streams : List PaymentStream) (i : Nat) {f : PaymentStream → PaymentStream}
    {g : List Nat × Nat → List Nat × Nat}
    (h : ∀ stream, ((f stream).paymentDeferreds, (f stream).currentRequestId) =
      g (stream.paymentDeferreds, stream.currentRequestId)) :
    streamIds (streams.modify i f) = (streamIds streams).modify i g := by
  unfold streamIds
  induction streams generalizing i with
  | nil => simp
  | cons stream streams ih =>
    cases i with
    | zero => simp [h]
    | succ i => simpa using ih i

theorem streamIds_modify_same (streams : List PaymentStream) (i : Nat) {f : PaymentStream → PaymentStream}
    (hdeferreds : ∀ stream, (f stream).paymentDeferreds = stream.paymentDeferreds)
    (hcurrent : ∀ stream, (f stream).currentRequestId = stream.currentRequestId) :
    streamIds (streams.modify i f) = streamIds streams := by
  rw [streamIds_modify streams i (g := id) fun stream => by rw [hdeferreds, hcurrent]; rfl, List.modify_id]

/-- What a setup reply may do. -/
inductive SetupReplied (env : PaymentEnvironment β) (s : ClientPaymentHandler β) (msg : Bytes) :
    ClientPaymentHandler β → Prop where
  | completed {parVersion : Nat} {paymentStreams : List PaymentStream}
      (ids_eq : streamIds paymentStreams = streamIds s.paymentStreams) (completes : s.CompletesSetup env msg) :
      SetupReplied env s msg { s with
        parVersion, paymentStreams
        tokenRequests := s.tokenRequests ++ [.start]
        setupDone := true, queuedReadTokens := 0, queuedWriteTokens := 0 }
  | stored {parVersion : Nat} {paymentStreams : List PaymentStream} {circDone : Bool}
      (ids_eq : streamIds paymentStreams = streamIds s.paymentStreams) (incomplete : ¬s.CompletesSetup env msg)
      (closed : circDone = (s.circDone || decide (s.setupVerdict env msg = .ok false))) :
      SetupReplied env s msg { s with parVersion, paymentStreams, circDone }

/-- The end of `handle_setup_reply`. Nothing changes when the circuit is done or Tor is not ready. -/
theorem startTokens_outcome {s : ClientPaymentHandler β} {Q : ClientPaymentHandler β → Prop}
    (hstay : ¬(s.circDone = false ∧ s.isReady = true) → Q s)
    (hcomplete : s.circDone = false → s.isReady = true → Q { s with
      tokenRequests := s.tokenRequests ++ [.start]
      setupDone := true, queuedReadTokens := 0, queuedWriteTokens := 0 }) :
    Outcome (do
      let started ← addTokens .start
      if !started then
        closeCircuit
      else
        modify fun s => { s with setupDone := true, queuedReadTokens := 0, queuedWriteTokens := 0 } : Pay β Unit)
      s (fun _ => Q) fun _ => Q := by
  unfold addTokens closeCircuit
  rw [outcome_bind, outcome_bind, outcome_get, outcome_ite]
  split
  · rename_i hdone
    have hclosed : { s with circDone := true } = s := by rw [← hdone]
    rw [outcome_pure, outcome_ite, if_pos (by rfl), outcome_modify, hclosed]
    exact hstay (by simp [hdone])
  · rename_i hopen
    rw [outcome_ite]
    split
    · rename_i hready
      exact hstay (by simpa using fun _ => hready)
    · rename_i hready
      exact hcomplete (by simpa using hopen) (by simpa using hready)

/-- What a setup reply leaves behind whose tokens end as `verdict`, before the others are looked at. -/
structure StreamStored (s : ClientPaymentHandler β) (i : Nat) (verdict : PyExcept Bool)
    (t : ClientPaymentHandler β) : Prop where
  ids_eq : streamIds t.paymentStreams = streamIds s.paymentStreams
  all_eq : verdict = .ok true →
    t.paymentStreams.all PaymentStream.setupDone = (s.paymentStreams.eraseIdx i).all PaymentStream.setupDone
  rest_eq : t = { s with
    paymentStreams := t.paymentStreams
    circDone := s.circDone || decide (verdict = .ok false) }

/-- The stream whose reply is accepted no longer counts. -/
theorem all_setupDone_modify {streams : List PaymentStream} {i : Nat} {stream : PaymentStream}
    (hi : streams[i]? = some stream) :
    (streams.modify i fun stream => { stream with setupDone := true }).all PaymentStream.setupDone =
      (streams.eraseIdx i).all PaymentStream.setupDone := by
  have hperm := modify_perm hi fun stream : PaymentStream => { stream with setupDone := true }
  rw [hperm.all_eq, List.all_cons, Bool.true_and]

theorem streamSetupReply_stores (env : PaymentEnvironment β) {s : ClientPaymentHandler β} {i : Nat}
    {stream : PaymentStream} (hi : s.paymentStreams[i]? = some stream) (version : Nat) (msg : Bytes)
    {verdict : PyExcept Bool} (hverdict : (paymentTokensRead (env.verify stream.hexId) s.circDone msg).2 = verdict) :
    Outcome (streamSetupReply env i version msg) s
      (fun _ t => (∃ valid, verdict = .ok valid) ∧ s.StreamStored i verdict t)
      fun e t => verdict = .error e ∧ s.StreamStored i verdict t := by
  have hi' : (s.paymentStreams.modify i fun stream => { stream with version })[i]? = some { stream with version } := by
    simp [hi]
  have hread := readPaymentTokens_readsAs env i msg (s := { s with
    paymentStreams := s.paymentStreams.modify i fun stream => { stream with version } }) hi'
  change ReadsAs _ i (paymentTokensRead (env.verify stream.hexId) s.circDone msg) _ at hread
  generalize paymentTokensRead (env.verify stream.hexId) s.circDone msg = reading at hread hverdict
  have hstored : streamIds ((s.paymentStreams.modify i fun stream => { stream with version }).modify i
      (PaymentStream.storeTokens reading.1)) = streamIds s.paymentStreams := by
    refine (streamIds_modify_same _ i ?_ ?_).trans (streamIds_modify_same _ i ?_ ?_)
    · exact fun _ => rfl
    · exact fun _ => rfl
    · exact fun _ => rfl
    · exact fun _ => rfl
  have hget : ((s.paymentStreams.modify i fun stream => { stream with version }).modify i
      (PaymentStream.storeTokens reading.1))[i]? = some (PaymentStream.storeTokens reading.1 { stream with version }) := by
    simp [hi]
  rw [streamSetupReply, outcome_bind, setStream, outcome_modify, outcome_bind]
  refine hread.mono ?_ ?_
  · rintro valid t ⟨hvalid, rfl⟩
    rw [← hverdict, hvalid, outcome_when, setStream, outcome_modify]
    cases valid with
    | false => exact ⟨⟨false, rfl⟩, hstored, (fun htrue => by cases htrue), rfl⟩
    | true =>
      refine ⟨⟨true, rfl⟩, ?_, fun _ => ?_, rfl⟩
      · refine (streamIds_modify_same _ i ?_ ?_).trans hstored
        · exact fun _ => rfl
        · exact fun _ => rfl
      · refine (all_setupDone_modify hget).trans ?_
        rw [List.eraseIdx_modify_of_eq, List.eraseIdx_modify_of_eq]
  · rintro e t ⟨he, rfl⟩
    rw [← hverdict, he]
    exact ⟨rfl, hstored, (fun htrue => by cases htrue), rfl⟩

theorem handleSetupReply_replied (env : PaymentEnvironment β) (msg : Bytes) (s : ClientPaymentHandler β) :
    SetupReplied env s msg (finish (handleSetupReply env msg) s) := by
  rw [← outcome_finish (I := SetupReplied env s msg)]
  unfold handleSetupReply
  rw [outcome_bind, outcome_attempt]
  cases hversion : Basic.readByte msg with
  | error e =>
    have hverdict : s.setupVerdict env msg = .error e := by simp [setupVerdict, addressee, hversion]
    exact .stored rfl (by simp [CompletesSetup, hverdict]) (by simp [hverdict])
  | ok p =>
    dsimp only
    rw [outcome_bind, outcome_modify, outcome_bind, outcome_get, outcome_bind, outcome_attempt]
    generalize min s.parVersion p.1 = parVersion
    have hsame : getPaymentStream { s with parVersion } p.2 = s.getPaymentStream p.2 := rfl
    rw [hsame]
    cases hstream : s.getPaymentStream p.2 with
    | error e =>
      have hverdict : s.setupVerdict env msg = .error e := by simp [setupVerdict, addressee, hversion, hstream]
      exact .stored rfl (by simp [CompletesSetup, hverdict]) (by simp [hverdict])
    | ok q =>
      obtain ⟨i, rest⟩ := q
      obtain ⟨stream, hi⟩ := getPaymentStream_ok hstream
      have haddressee : s.addressee msg = .ok (i, rest) := by simp [addressee, hversion, hstream]
      have hverdict : (paymentTokensRead (env.verify stream.hexId) s.circDone rest).2 = s.setupVerdict env msg := by
        simp [setupVerdict, haddressee, tokensFor, hi]
      have hothers : s.othersSetUp msg = (s.paymentStreams.eraseIdx i).all PaymentStream.setupDone := by
        simp [othersSetUp, haddressee]
      dsimp only
      rw [outcome_bind]
      refine (streamSetupReply_stores env (s := { s with parVersion }) hi p.1 rest hverdict).mono ?_ ?_
      · rintro _ t ⟨⟨valid, hvalid⟩, hids, hall, ht⟩
        generalize t.paymentStreams = streams at hids hall ht
        subst ht
        rw [outcome_bind, outcome_get, outcome_when]
        split
        · rename_i hdone
          refine startTokens_outcome (fun hstay => .stored hids ?_ rfl) fun hopen hready => ?_
          · rintro ⟨hopen, hready, htrue, -⟩
            exact hstay ⟨by simp [hopen, htrue], hready⟩
          · obtain ⟨hopen, hnot⟩ : s.circDone = false ∧ s.setupVerdict env msg ≠ .ok false := by simpa using hopen
            have htrue : s.setupVerdict env msg = .ok true := by
              cases valid with
              | false => exact absurd hvalid hnot
              | true => exact hvalid
            have hcompletes : s.CompletesSetup env msg :=
              ⟨hopen, hready, htrue, hothers.trans ((hall htrue).symm.trans hdone)⟩
            simpa [htrue] using SetupReplied.completed (s := s) hids hcompletes
        · rename_i hnot
          refine .stored hids (fun hcompletes => hnot ?_) rfl
          obtain ⟨-, -, htrue, hset⟩ := hcompletes
          exact (hall htrue).trans (hothers.symm.trans hset)
      · rintro e t ⟨he, hids, -, ht⟩
        generalize t.paymentStreams = streams at hids ht
        subst ht
        exact .stored hids (by simp [CompletesSetup, he]) rfl

/-- A new payment of stream `i` gets the id `curId`. -/
def registered (s : ClientPaymentHandler β) (i curId : Nat) : ClientPaymentHandler β :=
  { s with paymentStreams := s.paymentStreams.modify i fun stream => { stream with
      currentRequestId := stream.currentRequestId + 1
      paymentDeferreds := stream.paymentDeferreds ++ [curId] } }

structure Paying (R : ClientPaymentHandler β → ClientPaymentHandler β → Prop) : Prop where
  aside : ∀ bank coinsSpent popped encrypted s, R s { s with bank, coinsSpent, popped, encrypted }
  output : ∀ {o}, (∀ readTokens writeTokens ds, o ≠ .addTokens readTokens writeTokens ds) → Moves R (output o)
  stream : ∀ i {f : PaymentStream → PaymentStream},
    (∀ stream, (f stream).paymentDeferreds = stream.paymentDeferreds) →
    (∀ stream, (f stream).currentRequestId = stream.currentRequestId) → Moves R (setStream i f)
  register : ∀ {i s stream}, s.paymentStreams[i]? = some stream → R s (s.registered i stream.currentRequestId)
  finish : ∀ i paymentId result, Moves R (finishPayment i paymentId result)

theorem getStream_moves {R : ClientPaymentHandler β → ClientPaymentHandler β → Prop}
    [IsPreorder (ClientPaymentHandler β) R] (i : Nat) : Moves R (getStream i : Pay β PaymentStream) := by
  refine .bind .get fun s => ?_
  split
  · exact .throw _
  · exact .pure _

section
variable {R : ClientPaymentHandler β → ClientPaymentHandler β → Prop} [IsPreorder (ClientPaymentHandler β) R]

theorem moves_sendDirectTorMessage (hsent : ∀ name numHops msg, Moves R (output (.sent name numHops msg)))
    (msg : Bytes) (name : MessageName) (numHops : Nat) : Moves R (sendDirectTorMessage msg name numHops) := by
  refine .bind .get fun s => .when fun _ => .bind (.attempt _) fun _ => .when fun _ => ?_
  exact hsent name numHops msg

/-- The end of `start_bank_process`: the payments go to the bank over the hop before. -/
theorem moves_bankRelay (env : PaymentEnvironment β)
    (hencrypted : ∀ t : ClientPaymentHandler β, R t { t with encrypted := t.encrypted + 1 })
    (hsent : ∀ name numHops msg, Moves R (output (.sent name numHops msg))) (i : Nat) (paid : Bytes × Bytes) :
    Moves R (do
      let stream ← getStream i
      let s ← get
      modify fun s => { s with encrypted := s.encrypted + 1 }
      let bankMsg := 1 :: env.encrypt s.encrypted (3 :: paid.2)
      let msg ← attempt (relayMessage (stream.hop - 1) bankMsg paid.1)
      sendDirectTorMessage msg .bankRelay 1 : Pay β Unit) := by
  refine .bind (getStream_moves i) fun stream => .bind .get fun s => .bind (.modify hencrypted) fun _ => ?_
  exact .bind (.attempt _) fun _ => moves_sendDirectTorMessage hsent _ _ _

theorem moves_sendSetups (hsent : ∀ name numHops msg, Moves R (output (.sent name numHops msg)))
    (streams : List PaymentStream) : Moves R (sendSetups streams) := by
  induction streams with
  | nil => exact .pure _
  | cons stream streams ih =>
    exact .bind (.attempt _) fun _ => .bind (moves_sendDirectTorMessage hsent _ _ _) fun _ => ih

theorem moves_readTokens (env : PaymentEnvironment β) (i tokenSize : Nat) (hclose : Moves R (closeCircuit : Pay β Unit))
    (hstore : ∀ requestId token, Moves R (setStream i fun stream =>
      { stream with paymentTokens := stream.paymentTokens.insert requestId token } : Pay β Unit))
    (fuel : Nat) (msg : Bytes) : Moves R (readTokens env i tokenSize fuel msg) := by
  induction fuel generalizing msg with
  | zero => exact .pure _
  | succ fuel ih =>
    refine .ite (fun _ => .pure _) fun _ => .bind (getStream_moves i) fun stream => ?_
    refine .bind (.attempt _) fun token => .bind (.attempt _) fun valid => .bind .get fun s => ?_
    refine .ite (fun _ => .bind hclose fun _ => .pure _) fun _ => ?_
    exact .bind (hstore _ _) fun _ => ih _

theorem moves_readPaymentTokens (env : PaymentEnvironment β) (i : Nat)
    (hclose : Moves R (closeCircuit : Pay β Unit))
    (hstore : ∀ requestId token, Moves R (setStream i fun stream =>
      { stream with paymentTokens := stream.paymentTokens.insert requestId token } : Pay β Unit))
    (msg : Bytes) : Moves R (readPaymentTokens env i msg) := by
  refine .bind (.attempt _) fun p => .ite (fun _ => .throw _) fun _ => .ite (fun _ => .throw _) fun _ => ?_
  exact moves_readTokens env i _ hclose hstore _ _

end

/-- What firing a deferred does, besides recording its result. -/
structure Firing (R : ClientPaymentHandler β → ClientPaymentHandler β → Prop) : Prop where
  fired : ∀ fired s, R s { s with fired }
  collect : ∀ k d result s, R s { s with payments := s.payments.modify k fun payment =>
    { payment with paymentsDone := payment.paymentsDone.collect d result } }
  cancel : ∀ k s, R s { s with payments := s.payments.modify k fun p => { p with event := false } }
  credit : ∀ readTokens writeTokens ds, Moves R (output (.addTokens readTokens writeTokens ds))
  request : ∀ request s, R s { s with tokenRequests := s.tokenRequests ++ [request] }
  close : Moves R closeCircuit
  release : ∀ i paymentId, Moves R (setStream i fun stream =>
    { stream with paymentDeferreds := stream.paymentDeferreds.erase paymentId })

namespace Firing
variable {R : ClientPaymentHandler β → ClientPaymentHandler β → Prop} [IsPreorder (ClientPaymentHandler β) R]
  (hR : Firing R)
include hR

theorem addTokens (request : TokenRequest) : Moves R (addTokens request) := by
  refine .bind .get fun s => .ite (fun _ => .pure _) fun _ => .ite (fun _ => .throw _) fun _ => ?_
  exact .bind (.modify fun t => hR.request request t) fun _ => .pure _

theorem allReceiptsReceived (k : Nat) (p : Payment) (results : Option (List (Except PyError PaymentResult))) :
    Moves R (allReceiptsReceived k p results) := by
  unfold ClientPaymentHandler.allReceiptsReceived
  split
  · exact hR.close
  · exact hR.close
  · refine .ite (fun _ => hR.close) fun _ => .bind (.modify fun s => hR.cancel k s) fun _ => ?_
    exact .bind (hR.credit _ _ _) fun _ => .bind (hR.addTokens _) fun _ => .pure _

/-- What the callback of a list raises stays in its deferred. -/
theorem listFired (k : Nat) (p : Payment) (s : ClientPaymentHandler β) :
    Outcome (listFired k p) s (fun _ => R s) fun _ _ => False := by
  unfold ClientPaymentHandler.listFired
  split
  · exact refl_of R s
  · rw [outcome_rescue]
    exact (hR.allReceiptsReceived k p _ s).mono (fun _ _ h => h) fun _ _ h => h

theorem fire (d : Nat × Nat) (result : Except PyError PaymentResult) : Moves R (fire d result) := by
  refine .bind (.modify fun s => hR.fired _ s) fun _ => .bind .get fun s => ?_
  split
  · exact .pure _
  · rename_i k _
    refine .bind (.modify fun t => hR.collect k d _ t) fun _ => .bind .get fun t => ?_
    split
    · exact .pure _
    · exact fun u => (hR.listFired k _ u).mono (fun _ _ h => h) fun _ _ h => h.elim

theorem finishPayment (i paymentId : Nat) (result : Except PyError PaymentResult) :
    Moves R (finishPayment i paymentId result) := by
  refine .bind (getStream_moves i) fun stream => .ite (fun _ => ?_) fun _ => .throw _
  exact .bind (hR.release i paymentId) fun _ => hR.fire _ _

end Firing

theorem makeStreams_new {hop : Nat} {finalPath : List Bytes} {streams : List PaymentStream}
    (h : ∀ stream ∈ streams, ∃ hexId hop, stream = .new hexId hop) :
    ∀ stream ∈ makeStreams hop finalPath streams, ∃ hexId hop, stream = .new hexId hop := by
  induction finalPath generalizing hop streams with
  | nil => exact h
  | cons hexId finalPath ih =>
    rw [makeStreams]
    apply ih
    intro stream hstream
    split at hstream
    · obtain ⟨stream', hstream', rfl⟩ := List.mem_map.mp hstream
      split
      · exact ⟨hexId, hop, rfl⟩
      · exact h stream' hstream'
    · rcases List.mem_append.mp hstream with hstream | hstream
      · exact h stream hstream
      · exact ⟨hexId, hop, List.mem_singleton.mp hstream⟩

theorem new_streams {env : PaymentEnvironment β} {bank : β} {finalPath : List Bytes} {stream : PaymentStream}
    (h : stream ∈ (new env bank finalPath).paymentStreams) : ∃ hexId hop, stream = .new hexId hop :=
  makeStreams_new (fun _ h => by cases h) stream ((env.values_perm _).mem_iff.mp h)

/-- Each stream returns a deferred of its own. -/
theorem sendPayments_streams (env : PaymentEnvironment β) (readTokens writeTokens : Nat) (streams : List Nat)
    (s : ClientPaymentHandler β) :
    Outcome (sendPayments env readTokens writeTokens streams) s (fun ds _ => ds.map Prod.fst = streams)
      fun _ _ => True := by
  induction streams generalizing s with
  | nil => rfl
  | cons i streams ih =>
    have hfirst : Outcome (sendPayment env readTokens writeTokens i) s (fun d _ => d.1 = i) fun _ _ => True := by
      unfold sendPayment
      rw [outcome_bind]
      refine (outcome_trivial _ s).mono (fun stream t _ => ?_) fun _ _ h => h
      rw [outcome_bind]
      refine (outcome_trivial _ t).mono (fun _ u _ => ?_) fun _ _ h => h
      rw [outcome_ite]
      split
      · trivial
      · rw [outcome_bind]
        exact (outcome_trivial _ u).mono (fun _ _ _ => rfl) fun _ _ h => h
    rw [sendPayments, outcome_bind]
    refine hfirst.mono (fun d t hd => ?_) fun _ _ h => h
    rw [outcome_bind]
    refine (ih t).mono (fun ds u hu => ?_) fun _ _ h => h
    rw [outcome_pure, List.map_cons, hd, hu]

namespace Paying
variable {R : ClientPaymentHandler β → ClientPaymentHandler β → Prop} [IsPreorder (ClientPaymentHandler β) R]
  (hR : Paying R) (env : PaymentEnvironment β)
include hR

theorem popitem (i : Nat) : Moves R (popitem env i) := by
  refine .bind (getStream_moves i) fun stream => .bind .get fun s => .bind (.modify fun t => ?_) fun _ => ?_
  · exact hR.aside t.bank t.coinsSpent (t.popped + 1) t.encrypted t
  · dsimp only
    split
    · exact .bind (hR.output fun _ _ _ h => by cases h) fun _ => .throw _
    · exact .bind (hR.stream i (fun _ => rfl) fun _ => rfl) fun _ => .pure _

omit [IsPreorder (ClientPaymentHandler β) R] in
theorem getAcoins : Moves R (getAcoins env) := by
  intro s
  simp only [Outcome, ClientPaymentHandler.getAcoins]
  cases env.getAcoins s.bank with
  | ok coins bank => exact hR.aside bank s.coinsSpent s.popped s.encrypted s
  | error e bank => exact hR.aside bank s.coinsSpent s.popped s.encrypted s

theorem payLoop (i paymentId k : Nat) (msg bankMsg : Bytes) : Moves R (payLoop env i paymentId k msg bankMsg) := by
  induction k generalizing msg bankMsg with
  | zero => exact .pure _
  | succ k ih =>
    refine .bind (hR.popitem env i) fun p => .bind (hR.getAcoins env) fun coins => ?_
    cases coins with
    | nil => exact .bind (hR.finish i paymentId _) fun _ => .pure _
    | cons coin coins =>
      refine .bind (.modify fun t => ?_) fun _ => .bind (.attempt _) fun _ => .bind (.attempt _) fun _ => ?_
      · exact hR.aside t.bank (t.coinsSpent + 1) t.popped t.encrypted t
      · refine .bind (.attempt _) fun _ => .bind (hR.output fun _ _ _ h => by cases h) fun _ => ?_
        exact ih _ _

theorem startBankProcess (i readTokens writeTokens paymentId : Nat) :
    Moves R (startBankProcess env i readTokens writeTokens paymentId) := by
  refine .bind .get fun s => .bind (hR.output fun _ _ _ h => by cases h) fun _ => ?_
  refine .bind (.attempt _) fun msg => .bind (.attempt _) fun number => .bind (hR.payLoop env _ _ _ _ _) fun paid => ?_
  cases paid with
  | none => exact .pure _
  | some paid =>
    refine moves_bankRelay env (fun t => ?_) (fun _ _ _ => ?_) i paid
    · exact hR.aside t.bank t.coinsSpent t.popped (t.encrypted + 1) t
    · exact hR.output fun _ _ _ h => by cases h

theorem queueOrStart (i readTokens writeTokens curId : Nat) :
    Moves R (queueOrStart env i readTokens writeTokens curId) := by
  refine .bind (getStream_moves i) fun stream => .ite (fun _ => ?_) fun _ => hR.startBankProcess env _ _ _ _
  exact .bind (hR.output fun _ _ _ h => by cases h) fun _ => hR.stream i (fun _ => rfl) fun _ => rfl

theorem sendPayment (readTokens writeTokens i : Nat) : Moves R (sendPayment env readTokens writeTokens i) := by
  intro s
  unfold ClientPaymentHandler.sendPayment setStream
  rw [outcome_bind]
  cases hi : s.paymentStreams[i]? with
  | none => exact (outcome_getStream_none hi).mpr (refl_of R s)
  | some stream =>
    rw [outcome_getStream hi, outcome_bind, outcome_modify]
    have hregister : R s (s.registered i stream.currentRequestId) := hR.register hi
    have hrest : Moves R (if MAX_MERCHANT_TOKENS < numPayments readTokens writeTokens then
        throw (.assertionError "not enough merchant tokens to send payments")
      else do
        ClientPaymentHandler.queueOrStart env i readTokens writeTokens stream.currentRequestId
        return (i, stream.currentRequestId) : Pay β (Nat × Nat)) := by
      refine .ite (fun _ => .throw _) fun _ => ?_
      exact .bind (hR.queueOrStart env _ _ _ _) fun _ => .pure _
    exact (hrest _).mono (fun _ _ h => trans_of R hregister h) fun _ _ h => trans_of R hregister h

theorem sendPayments (readTokens writeTokens : Nat) (streams : List Nat) :
    Moves R (sendPayments env readTokens writeTokens streams) := by
  induction streams with
  | nil => exact .pure _
  | cons i streams ih =>
    exact .bind (hR.sendPayment env readTokens writeTokens i) fun _ => .bind ih fun _ => .pure _

theorem startPending (i : Nat) : Moves R (startPending env i) := by
  refine .bind (getStream_moves i) fun stream => ?_
  split
  · exact .pure _
  · refine .when fun _ => .bind (hR.stream i (fun _ => rfl) fun _ => rfl) fun _ => ?_
    exact hR.startBankProcess env _ _ _ _

theorem handleReceipt (hclose : Moves R (closeCircuit : Pay β Unit)) (msg : Bytes) :
    Moves R (handleReceipt env msg) := by
  refine .bind (.attempt _) fun p => .bind .get fun s => .bind (.attempt _) fun q => ?_
  refine .bind (.attempt _) fun r => .bind ?_ fun valid => .when fun _ => ?_
  · exact moves_readPaymentTokens env q.1 hclose (fun _ _ => hR.stream _ (fun _ => rfl) fun _ => rfl) r.2
  · refine .bind (hR.output fun _ _ _ h => by cases h) fun _ => ?_
    exact .bind (hR.startPending env q.1) fun _ => hR.finish q.1 r.1 _

end Paying

/-! ### Timeouts -/

section
variable {env : PaymentEnvironment β} {s t : ClientPaymentHandler β}

theorem step_setupTimeout (h : step env s .setupTimeout = some t) : t = { s with circDone := true } := by
  simp only [step, Option.ite_none_right_eq_some] at h
  obtain ⟨-, h⟩ := h
  exact (Option.some.inj h).symm

/-- The timeout of a payment closes the circuit like that of the setup. -/
theorem step_paymentTimeout {k : Nat} (h : step env s (.paymentTimeout k) = some t) : t = { s with
    payments := s.payments.modify k fun p => { p with event := false }
    circDone := true } := by
  simp only [step] at h
  split at h
  · cases h
  · simp only [Option.ite_none_right_eq_some] at h
    obtain ⟨-, h⟩ := h
    exact (Option.some.inj h).symm

end

end ClientPaymentHandler

end BitBlinder.Tor
