import BitBlinder.Client.BankConnection
import BitBlinder.Tor.TokenGrants

/-!
# What a payment message earns

`handle_payment` together with the wallet of the bank connection that its coins go to.
While Tor is ready a message closes the circuit, is dropped on a closed circuit, or grants
at most what the coins are worth that it has added to the wallet; while Tor is not ready
nothing is granted, and closing the circuit raises as well.
-/

namespace BitBlinder.Tor

set_option autoImplicit false

open Struct Client Effects

namespace ServerPaymentHandler

variable (cfg : RelayConfig) (bankEnv : Client.Environment) (isReady : Bool)

/-- What the handler reads of a bank connection. -/
def envAt (bank : BankConnection) : Env where
  isReady := isReady
  interval := bank.currentACoinInterval
  onEarnedCoin coin :=
    match BankConnection.onEarnedCoin bankEnv coin bank with
    | .ok _ _ => .ok ()
    | .error e _ => .error e

/-- One coin, which goes to the bank connection. -/
def takeCoinAt (s : ServerPaymentHandler) (bank : BankConnection) (coinLen requestId : Nat) (msg : Bytes) :
    ServerPaymentHandler × BankConnection × PyExcept Nat :=
  match s.takeCoin cfg (envAt bankEnv isReady bank) coinLen requestId msg with
  | (t, result) =>
    (t, (t.earned.drop s.earned.length).foldl (fun bank coin => finish (BankConnection.onEarnedCoin bankEnv coin) bank) bank,
      result)

def takeCoinsAt (coinLen : Nat) : List Nat → ServerPaymentHandler → BankConnection → Bytes → Nat →
    ServerPaymentHandler × BankConnection × PyExcept Nat
  | [], s, bank, _, creditsEarned => (s, bank, .ok creditsEarned)
  | requestId :: requests, s, bank, msg, creditsEarned =>
    match s.takeCoinAt cfg bankEnv isReady bank coinLen requestId msg with
    | (s, bank, .error e) => (s, bank, .error e)
    | (s, bank, .ok credits) => takeCoinsAt coinLen requests s bank (msg.drop coinLen) (creditsEarned + credits)

/-- The body of the `try` statement. -/
def paymentAt (s : ServerPaymentHandler) (bank : BankConnection) (msg : Bytes) :
    ServerPaymentHandler × BankConnection × PyExcept Unit :=
  match readHeader msg with
  | .error e => (s, bank, .error e)
  | .ok (header, msg) =>
    match takeCoinsAt cfg bankEnv isReady (msg.length / header.numCoins) header.requests s bank msg 0 with
    | (s, bank, .error e) => (s, bank, .error e)
    | (s, bank, .ok creditsEarned) =>
      match s.sendReceiptMessage cfg (envAt bankEnv isReady bank) header.theirId header.numCoins with
      | (s, .error e) => (s, bank, .error e)
      | (s, .ok _) =>
        if s.baseCircuit.isClosed then
          (s, bank, .ok ())
        else
          let requestedTokens := header.readTokens + header.writeTokens
          let paidTokens := creditsEarned * Globals.CELLS_PER_PAYMENT
          if paidTokens < requestedTokens then
            (s, bank, .error (.exception ("Relays asked for " ++ toString requestedTokens ++
              ", but only paid for " ++ toString paidTokens)))
          else
            match s.addTokens (envAt bankEnv isReady bank) header.readTokens header.writeTokens with
            | (s, result) => (s, bank, result)

def handlePaymentAt (s : ServerPaymentHandler) (bank : BankConnection) (msg : Bytes) :
    ServerPaymentHandler × BankConnection × PyExcept Unit :=
  match s.paymentAt cfg bankEnv isReady bank msg with
  | (s, bank, .ok ()) => (s, bank, .ok ())
  | (s, bank, .error _) =>
    match s.close (envAt bankEnv isReady bank) with
    | (s, result) => (s, bank, result)

/-- Every request costs one credit and has a number that was given out. -/
structure Requested (s : ServerPaymentHandler) : Prop where
  cost : ∀ id request, s.requests.lookup id = some request → request.value = getCost
  numbered : ∀ id ∈ s.requests, id < s.currentRequestId

variable {cfg bankEnv isReady} {s t : ServerPaymentHandler} {bank bank' : BankConnection} {env : Env}

theorem new_requested : Requested new := by
  constructor <;> simp [new]

theorem Requested.erase (h : s.Requested) (requestId : Nat) :
    Requested { s with requests := s.requests.erase requestId } := by
  constructor
  · intro id request hrequest
    by_cases hid : id = requestId
    · subst hid
      rw [AList.lookup_erase] at hrequest
      cases hrequest
    · rw [AList.lookup_erase_ne hid] at hrequest
      exact h.cost id request hrequest
  · intro id hid
    exact h.numbered id (AList.mem_erase.mp hid).2

theorem generatePaymentRequestMessage_requested (h : s.Requested) :
    (s.generatePaymentRequestMessage cfg env).1.Requested := by
  unfold generatePaymentRequestMessage
  dsimp only
  split
  · exact ⟨h.cost, h.numbered⟩
  · rename_i request hmake
    constructor
    · intro id request' hrequest
      by_cases hid : id = s.currentRequestId
      · subst hid
        rw [AList.lookup_insert] at hrequest
        cases hrequest
        exact (makeAcoinRequest_ok hmake).2
      · rw [AList.lookup_insert_ne hid] at hrequest
        exact h.cost id request' hrequest
    · intro id hid
      rcases (AList.mem_insert _).mp hid with rfl | hold
      · exact Nat.lt_succ_self _
      · exact Nat.lt_succ_of_lt (h.numbered id hold)

/-- What making requests does not touch, and what it adds to the store. -/
structure Renews (s t : ServerPaymentHandler) : Prop where
  tokens : t.tokens = s.tokens
  circuit : t.baseCircuit = s.baseCircuit
  added : ∀ id ∈ t.requests, id ∈ s.requests ∨ s.currentRequestId ≤ id
  next : s.currentRequestId ≤ t.currentRequestId
  requested : s.Requested → t.Requested

theorem Renews.refl (s : ServerPaymentHandler) : Renews s s :=
  ⟨rfl, rfl, fun _ h => .inl h, Nat.le_refl _, id⟩

theorem Renews.trans {u : ServerPaymentHandler} (h : Renews s t) (h' : Renews t u) : Renews s u where
  tokens := h'.tokens.trans h.tokens
  circuit := h'.circuit.trans h.circuit
  added id hid := by
    rcases h'.added id hid with hold | hnew
    · exact h.added id hold
    · exact .inr (Nat.le_trans h.next hnew)
  next := Nat.le_trans h.next h'.next
  requested hs := h'.requested (h.requested hs)

theorem generatePaymentRequestMessage_renews (cfg : RelayConfig) (env : Env) (s : ServerPaymentHandler) :
    Renews s (s.generatePaymentRequestMessage cfg env).1 := by
  refine ⟨?_, ?_, ?_, ?_, generatePaymentRequestMessage_requested⟩ <;> unfold generatePaymentRequestMessage <;>
    dsimp only <;> split
  · rfl
  · rfl
  · rfl
  · rfl
  · exact fun id hid => .inl hid
  · intro id hid
    rcases (AList.mem_insert _).mp hid with rfl | hold
    · exact .inr (Nat.le_refl _)
    · exact .inl hold
  · exact Nat.le_refl _
  · exact Nat.le_succ _

theorem generateLoop_renews (cfg : RelayConfig) (env : Env) (k : Nat) (s : ServerPaymentHandler) (msg : Bytes) :
    Renews s (generateLoop cfg env k s msg).1 := by
  induction k generalizing s msg with
  | zero => exact .refl s
  | succ k ih =>
    have hone := generatePaymentRequestMessage_renews cfg env s
    unfold generateLoop
    split
    · rename_i t e heq
      rwa [heq] at hone
    · rename_i t request heq
      rw [heq] at hone
      exact hone.trans (ih t _)

theorem sendReceiptMessage_renews (cfg : RelayConfig) (env : Env) (s : ServerPaymentHandler) (theirId numTokens : Nat) :
    Renews s (s.sendReceiptMessage cfg env theirId numTokens).1 := by
  unfold sendReceiptMessage
  split
  · exact .refl s
  · rename_i msg _
    have hloop := generateLoop_renews cfg env numTokens s msg
    split
    · rename_i heq
      rwa [heq] at hloop
    · rename_i heq
      rwa [heq] at hloop

theorem envAt_unready (bankEnv : Client.Environment) (bank : BankConnection) : (envAt bankEnv false bank).isReady = false := rfl

/-- While Tor is not ready nothing is sent. -/
theorem sendReceiptMessage_unready (cfg : RelayConfig) (s : ServerPaymentHandler) (hready : env.isReady = false) (theirId numTokens : Nat) :
    ∃ e, (s.sendReceiptMessage cfg env theirId numTokens).2 = .error e := by
  unfold sendReceiptMessage
  split
  · exact ⟨_, rfl⟩
  · split
    · exact ⟨_, rfl⟩
    · exact ⟨.torCtlClosed, by simp [BaseCircuit.sendDirectTorMessage, hready]⟩

theorem takeCoin_requested (cfg : RelayConfig) (env : Env) (hs : s.Requested) (coinLen requestId : Nat) (msg : Bytes) :
    (s.takeCoin cfg env coinLen requestId msg).1.Requested := by
  have herase := hs.erase requestId
  unfold takeCoin
  split
  · exact hs
  · split
    · exact hs
    · split
      · exact hs
      · dsimp only
        split
        · exact herase
        · exact herase
        · split <;> exact ⟨herase.cost, herase.numbered⟩

theorem takeCoins_requested (cfg : RelayConfig) (env : Env) (hs : s.Requested) (coinLen : Nat) (ids : List Nat) (msg : Bytes) (creditsEarned : Nat) :
    (takeCoins cfg env coinLen ids s msg creditsEarned).1.Requested := by
  induction ids generalizing s msg creditsEarned with
  | nil => exact hs
  | cons id ids ih =>
    have hone := takeCoin_requested cfg env hs coinLen id msg
    unfold takeCoins
    split
    · rename_i heq
      rwa [heq] at hone
    · rename_i heq
      rw [heq] at hone
      exact ih hone _ _

theorem Requested.addTokens (hs : s.Requested) (env : Env) (readTokens writeTokens : Int) :
    (s.addTokens env readTokens writeTokens).1.Requested := by
  unfold ServerPaymentHandler.addTokens
  split
  · exact ⟨hs.cost, hs.numbered⟩
  · exact hs

theorem handlePayment_requested (hs : s.Requested) (msg : Bytes) : (s.handlePayment cfg env msg).1.Requested := by
  have hpayment : (s.payment cfg env msg).1.Requested := by
    unfold payment
    split
    · exact hs
    · rename_i header rest _
      have hcoins := takeCoins_requested cfg env hs (rest.length / header.numCoins) header.requests rest 0
      split
      · rename_i heq
        rwa [heq] at hcoins
      · rename_i u creditsEarned heq
        rw [heq] at hcoins
        have hreceipt := (sendReceiptMessage_renews cfg env u header.theirId header.numCoins).requested hcoins
        split
        · rename_i heq
          rwa [heq] at hreceipt
        · rename_i v cells heq
          rw [heq] at hreceipt
          split
          · exact hreceipt
          · dsimp only
            split
            · exact hreceipt
            · exact hreceipt.addTokens env _ _
  unfold handlePayment
  split
  · rename_i heq
    rwa [heq] at hpayment
  · rename_i heq
    rw [heq] at hpayment
    exact hpayment.addTokens env _ _

theorem handleSetup_requested (hs : s.Requested) : (s.handleSetup cfg env).1.Requested := by
  have hreply : (s.sendSetupReply cfg env).1.Requested := by
    unfold sendSetupReply
    split
    · exact hs
    · rename_i msg _
      have hloop := (generateLoop_renews cfg env MAX_MERCHANT_TOKENS s msg).requested hs
      split
      · rename_i heq
        rwa [heq] at hloop
      · rename_i heq
        rwa [heq] at hloop
  unfold handleSetup
  split
  · rename_i heq
    rwa [heq] at hreply
  · rename_i u cells heq
    rw [heq] at hreply
    have htokens := hreply.addTokens env START_READ_TOKENS START_WRITE_TOKENS
    unfold addStartTokens
    split
    · rename_i heq
      rw [heq] at htokens
      exact ⟨htokens.cost, htokens.numbered⟩
    · rename_i heq
      rwa [heq] at htokens

/-- The states that a handler reaches. -/
theorem requested_step {e : RelayEvent} (hs : s.Requested) (hstep : step cfg s e = some t) : t.Requested := by
  cases e with
  | setup env msg =>
    cases hstep
    exact handleSetup_requested hs
  | payment env msg =>
    cases hstep
    exact handlePayment_requested hs msg
  | bankRelay msg =>
    cases hstep
    unfold handleBankRelay
    split
    · exact hs
    · exact ⟨hs.cost, hs.numbered⟩
  | bankResponse env j response =>
    obtain ⟨relay, -, rfl⟩ := Option.map_eq_some_iff.mp hstep
    have hrest : Requested { s with relays := s.relays.eraseIdx j } := ⟨hs.cost, hs.numbered⟩
    unfold bankResponse
    dsimp only
    split
    · exact hrest
    · exact handlePayment_requested hrest _
  | bankFailure j =>
    obtain ⟨relay, -, rfl⟩ := Option.map_eq_some_iff.mp hstep
    exact ⟨hs.cost, hs.numbered⟩
  | circuitClosed =>
    cases hstep
    exact ⟨hs.cost, hs.numbered⟩

theorem requested_of_run {es : List RelayEvent} {D : ServerPaymentHandler → RelayEvent → Prop} (h : Run (step cfg) D new es t) :
    t.Requested :=
  h.invariant (fun hs _ hstep => requested_step hs hstep) new_requested

/-! ### Coins -/

theorem earned_coin {coin : ACoin} (h : (envAt bankEnv isReady bank).onEarnedCoin coin = .ok ()) :
    ¬bank.ACoins.Holds coin ∧
      (finish (BankConnection.onEarnedCoin bankEnv coin) bank).ACoins = bank.ACoins.add coin := by
  unfold envAt at h
  dsimp only at h
  split at h
  · rename_i u bank' hok
    have houtcome : Outcome (BankConnection.onEarnedCoin bankEnv coin) bank
        (fun _ bank' => ¬bank.ACoins.Holds coin ∧ bank'.ACoins = bank.ACoins.add coin) fun _ _ => True := by
      simp only [BankConnection.onEarnedCoin, BankConnection.addAcoin, outcome_bind, outcome_get, outcome_attempt]
      split
      · split
        · simp only [outcome_ite, outcome_throw, outcome_modify]
          split
          · trivial
          · rename_i hnew
            exact ⟨hnew, trivial⟩
        · trivial
      · trivial
    simp only [Outcome, hok] at houtcome
    simp only [finish, hok]
    exact houtcome
  · cases h

/-- What taking the coins of a message does: they are unblinded with distinct requests, which go, and join the wallet. -/
structure Takes (cfg : RelayConfig) (s t : ServerPaymentHandler) (bank bank' : BankConnection) (ids : List Nat)
    (coins : List ACoin) : Prop where
  circuit : t.baseCircuit = s.baseCircuit
  next : t.currentRequestId = s.currentRequestId
  distinct : ids.Nodup
  unblinded : List.Forall₂ (fun id coin => ∃ request sig, s.requests.lookup id = some request ∧
    parseAcoinResponse cfg.acoinKey sig request true = .ok (some coin)) ids coins
  requests : ∀ id request, t.requests.lookup id = some request ↔ s.requests.lookup id = some request ∧ id ∉ ids
  new : ∀ coin ∈ coins, ¬bank.ACoins.Holds coin
  nodup : (coins.map ACoin.key).Nodup
  wallet : ∀ coin, bank'.ACoins.Holds coin ↔ Among coin coins ∨ bank.ACoins.Holds coin

theorem takeCoin_spec (cfg : RelayConfig) (env : Env) (s : ServerPaymentHandler) (coinLen requestId : Nat) (msg : Bytes) :
    (s.takeCoin cfg env coinLen requestId msg).1.tokens = s.tokens ∧
      ∀ credits, (s.takeCoin cfg env coinLen requestId msg).2 = .ok credits →
        ∃ request sig coin, s.requests.lookup requestId = some request ∧
          parseAcoinResponse cfg.acoinKey sig request true = .ok (some coin) ∧ env.onEarnedCoin coin = .ok () ∧
          credits = coin.value ∧ (s.takeCoin cfg env coinLen requestId msg).1 =
            { s with requests := s.requests.erase requestId, earned := s.earned ++ [coin] } := by
  unfold takeCoin
  split
  · exact ⟨rfl, nofun⟩
  · split
    · exact ⟨rfl, nofun⟩
    · split
      · exact ⟨rfl, nofun⟩
      · rename_i request hrequest
        dsimp only
        split
        · exact ⟨rfl, nofun⟩
        · exact ⟨rfl, nofun⟩
        · rename_i coin hparse
          obtain ⟨⟨code, sig⟩, -, hparse⟩ := PyExcept.bind_eq_ok hparse
          split
          · exact ⟨rfl, nofun⟩
          · rename_i hearned
            refine ⟨rfl, fun credits h => ?_⟩
            cases h
            exact ⟨request, sig, coin, hrequest, hparse, hearned, rfl, rfl⟩

theorem takeCoinAt_tokens (cfg : RelayConfig) (bankEnv : Client.Environment) (isReady : Bool) (s : ServerPaymentHandler)
    (bank : BankConnection) (coinLen requestId : Nat) (msg : Bytes) :
    (s.takeCoinAt cfg bankEnv isReady bank coinLen requestId msg).1.tokens = s.tokens :=
  (takeCoin_spec cfg (envAt bankEnv isReady bank) s coinLen requestId msg).1

theorem takeCoinAt_takes (hs : s.Requested) {coinLen requestId : Nat} {msg : Bytes} {credits : Nat}
    (h : s.takeCoinAt cfg bankEnv isReady bank coinLen requestId msg = (t, bank', .ok credits)) :
    credits = 1 ∧ t.Requested ∧ ∃ coin, Takes cfg s t bank bank' [requestId] [coin] := by
  obtain ⟨-, hspec⟩ := takeCoin_spec cfg (envAt bankEnv isReady bank) s coinLen requestId msg
  simp only [takeCoinAt, Prod.mk.injEq] at h
  obtain ⟨rfl, rfl, hresult⟩ := h
  obtain ⟨request, sig, coin, hrequest, hparse, hearned, rfl, ht⟩ := hspec credits hresult
  obtain ⟨hnew, hwallet⟩ := earned_coin hearned
  have hvalue : coin.value = 1 := (parseAcoinResponse_valid hparse).2.1.trans (hs.cost requestId request hrequest)
  rw [ht]
  refine ⟨hvalue, ?_, coin, ⟨rfl, rfl, List.nodup_singleton requestId, ?_, ?_, ?_, List.nodup_singleton _, ?_⟩⟩
  · have herase := hs.erase requestId
    exact ⟨herase.cost, herase.numbered⟩
  · exact .cons ⟨request, sig, hrequest, hparse⟩ .nil
  · intro id request'
    rw [List.mem_singleton]
    by_cases hid : id = requestId
    · subst hid
      rw [AList.lookup_erase]
      exact iff_of_false nofun fun h => h.2 rfl
    · rw [AList.lookup_erase_ne hid]
      exact (and_iff_left hid).symm
  · intro c hc
    rw [List.mem_singleton.mp hc]
    exact hnew
  · intro c
    dsimp only
    rw [List.drop_left, List.foldl_cons, List.foldl_nil, hwallet, Wallet.holds_add]
    simp [Among]

theorem Takes.nil (s : ServerPaymentHandler) (bank : BankConnection) : Takes cfg s s bank bank [] [] :=
  ⟨rfl, rfl, List.nodup_nil, .nil, by simp, by simp, List.nodup_nil, by simp⟩

theorem Takes.trans {u : ServerPaymentHandler} {bank'' : BankConnection} {ids ids' : List Nat} {coins coins' : List ACoin}
    (h : Takes cfg s t bank bank' ids coins) (h' : Takes cfg t u bank' bank'' ids' coins') :
    Takes cfg s u bank bank'' (ids ++ ids') (coins ++ coins') := by
  have hlater {id : Nat} (hid : id ∈ ids') : id ∉ ids := by
    obtain ⟨i, hi, rfl⟩ := List.getElem_of_mem hid
    obtain ⟨request, sig, hrequest, -⟩ := h'.unblinded.get hi (h'.unblinded.length_eq ▸ hi)
    exact ((h.requests _ request).mp hrequest).2
  have hfresh {coin : ACoin} (hcoin : coin ∈ coins') : ¬Among coin coins ∧ ¬bank.ACoins.Holds coin := by
    have hnew := h'.new coin hcoin
    rw [h.wallet] at hnew
    exact not_or.mp hnew
  constructor
  · exact h'.circuit.trans h.circuit
  · exact h'.next.trans h.next
  · exact h.distinct.append h'.distinct fun id hid hid' => hlater hid' hid
  · refine List.rel_append h.unblinded (h'.unblinded.imp ?_)
    rintro id coin ⟨request, sig, hrequest, hparse⟩
    exact ⟨request, sig, ((h.requests id request).mp hrequest).1, hparse⟩
  · intro id request
    rw [h'.requests, h.requests, List.mem_append, not_or, and_assoc]
  · intro coin hcoin
    rcases List.mem_append.mp hcoin with hcoin | hcoin
    · exact h.new coin hcoin
    · exact (hfresh hcoin).2
  · rw [List.map_append]
    refine h.nodup.append h'.nodup fun key hkey hkey' => ?_
    obtain ⟨coin, hcoin, rfl⟩ := List.mem_map.mp hkey'
    exact (hfresh hcoin).1 hkey
  · intro coin
    rw [h'.wallet, h.wallet, among_append, or_left_comm, or_assoc]

/-- The coins of a message, one after the other. -/
theorem takeCoinsAt_takes (coinLen : Nat) (ids : List Nat) {msg : Bytes} {creditsEarned total : Nat} (hs : s.Requested)
    (h : takeCoinsAt cfg bankEnv isReady coinLen ids s bank msg creditsEarned = (t, bank', .ok total)) :
    t.Requested ∧ ∃ coins, Takes cfg s t bank bank' ids coins ∧ total = creditsEarned + coins.length := by
  induction ids generalizing s bank msg creditsEarned with
  | nil =>
    cases h
    exact ⟨hs, [], .nil _ _, rfl⟩
  | cons id ids ih =>
    unfold takeCoinsAt at h
    split at h
    · cases h
    · rename_i u bank'' credits hcoin
      obtain ⟨rfl, hu, coin, hone⟩ := takeCoinAt_takes hs hcoin
      obtain ⟨ht, coins, hrest, rfl⟩ := ih hu h
      refine ⟨ht, [coin] ++ coins, hone.trans hrest, ?_⟩
      rw [List.length_append, List.length_singleton]
      omega

theorem takeCoinsAt_tokens (cfg : RelayConfig) (bankEnv : Client.Environment) (isReady : Bool) (s : ServerPaymentHandler)
    (bank : BankConnection) (coinLen : Nat) (ids : List Nat) (msg : Bytes) (creditsEarned : Nat) :
    (takeCoinsAt cfg bankEnv isReady coinLen ids s bank msg creditsEarned).1.tokens = s.tokens := by
  induction ids generalizing s bank msg creditsEarned with
  | nil => rfl
  | cons id ids ih =>
    have hone := takeCoinAt_tokens cfg bankEnv isReady s bank coinLen id msg
    unfold takeCoinsAt
    split
    · rename_i heq
      rwa [heq] at hone
    · rename_i heq
      rw [heq] at hone
      exact (ih _ _ _ _).trans hone

/-! ### The message -/

/-- What was granted for the coins of a message: `add_tokens(r, w)`, paid for by the coins that joined the wallet. -/
structure Grants (cfg : RelayConfig) (s t : ServerPaymentHandler) (bank bank' : BankConnection) (r w : Nat) (ids : List Nat)
    (coins : List ACoin) : Prop where
  tokens : t.tokens = s.tokens ++ [((r : Int), (w : Int))]
  paid : r + w ≤ Globals.CELLS_PER_PAYMENT * coins.length
  distinct : ids.Nodup
  unblinded : List.Forall₂ (fun id coin => ∃ request sig, s.requests.lookup id = some request ∧
    parseAcoinResponse cfg.acoinKey sig request true = .ok (some coin)) ids coins
  removed : ∀ id ∈ ids, id ∉ t.requests
  new : ∀ coin ∈ coins, ¬bank.ACoins.Holds coin
  nodup : (coins.map ACoin.key).Nodup
  wallet : ∀ coin, bank'.ACoins.Holds coin ↔ Among coin coins ∨ bank.ACoins.Holds coin

/-- No exception escapes, and the circuit is closed, or nothing is granted, or what is granted was paid for. -/
def NeverOverGrants (cfg : RelayConfig) (bankEnv : Client.Environment) (isReady : Bool) (s : ServerPaymentHandler)
    (bank : BankConnection) (msg : Bytes) : Prop :=
  ∃ t bank', s.handlePaymentAt cfg bankEnv isReady bank msg = (t, bank', .ok ()) ∧
    (t.tokens = s.tokens ++ [(-1, -1)] ∨ t.tokens = s.tokens ∨ ∃ r w ids coins, Grants cfg s t bank bank' r w ids coins)

theorem paymentAt_unready (cfg : RelayConfig) (bankEnv : Client.Environment) (s : ServerPaymentHandler) (bank : BankConnection)
    (msg : Bytes) : ∃ t bank' e, s.paymentAt cfg bankEnv false bank msg = (t, bank', .error e) := by
  unfold paymentAt
  split
  · exact ⟨_, _, _, rfl⟩
  · split
    · exact ⟨_, _, _, rfl⟩
    · rename_i u bank' creditsEarned _
      obtain ⟨e, he⟩ := sendReceiptMessage_unready cfg u (envAt_unready bankEnv bank') _ _
      split
      · exact ⟨_, _, _, rfl⟩
      · rename_i hok
        rw [hok] at he
        cases he

/-- The body of the `try` statement while Tor is ready. -/
theorem paymentAt_ready (hs : s.Requested) {msg : Bytes} {result : PyExcept Unit}
    (h : s.paymentAt cfg bankEnv true bank msg = (t, bank', result)) :
    t.tokens = s.tokens ∨ result = .ok () ∧ ∃ r w ids coins, Grants cfg s t bank bank' r w ids coins := by
  unfold paymentAt at h
  split at h
  · cases h
    exact .inl rfl
  · rename_i header rest _
    have hcoins := takeCoinsAt_tokens cfg bankEnv true s bank (rest.length / header.numCoins) header.requests rest 0
    split at h
    · rename_i heq
      rw [heq] at hcoins
      cases h
      exact .inl hcoins
    · rename_i u bank'' creditsEarned heq
      rw [heq] at hcoins
      obtain ⟨hu, coins, htakes, hcredits⟩ := takeCoinsAt_takes _ _ hs heq
      have hreceipt := sendReceiptMessage_renews cfg (envAt bankEnv true bank'') u header.theirId header.numCoins
      split at h
      · rename_i heq
        rw [heq] at hreceipt
        cases h
        exact .inl (hreceipt.tokens.trans hcoins)
      · rename_i v cells heq
        rw [heq] at hreceipt
        split at h
        · cases h
          exact .inl (hreceipt.tokens.trans hcoins)
        · dsimp only at h
          split at h
          · cases h
            exact .inl (hreceipt.tokens.trans hcoins)
          · rename_i henough
            cases h
            refine .inr ⟨rfl, header.readTokens, header.writeTokens, header.requests, coins, ?_⟩
            constructor
            · exact congrArg (· ++ [((header.readTokens : Int), (header.writeTokens : Int))]) (hreceipt.tokens.trans hcoins)
            · rw [hcredits, Nat.zero_add] at henough
              rw [Nat.mul_comm]
              exact Nat.le_of_not_lt henough
            · exact htakes.distinct
            · exact htakes.unblinded
            · -- The numbers of new requests are higher than those that were outstanding.
              intro id hid hmem
              obtain ⟨i, hi, rfl⟩ := List.getElem_of_mem hid
              obtain ⟨request, sig, hrequest, -⟩ := htakes.unblinded.get hi (htakes.unblinded.length_eq ▸ hi)
              have hlt := hs.numbered _ (AList.lookup_isSome.mp (Option.isSome_of_mem hrequest))
              rcases hreceipt.added _ hmem with hold | hnew
              · obtain ⟨request', hrequest'⟩ := Option.isSome_iff_exists.mp (AList.lookup_isSome.mpr hold)
                exact ((htakes.requests _ request').mp hrequest').2 hid
              · rw [htakes.next] at hnew
                exact absurd hlt (Nat.not_lt.mpr hnew)
            · exact htakes.new
            · exact htakes.nodup
            · exact htakes.wallet

/-- A payment message is handled as it should be exactly when Tor is ready. -/
theorem handle_payment_never_over_grants (cfg : RelayConfig) (bankEnv : Client.Environment) (isReady : Bool)
    (s : ServerPaymentHandler) (bank : BankConnection) (msg : Bytes) (hs : s.Requested) :
    NeverOverGrants cfg bankEnv isReady s bank msg ↔ isReady = true := by
  unfold NeverOverGrants handlePaymentAt
  cases isReady with
  | false =>
    obtain ⟨t, bank', e, he⟩ := paymentAt_unready cfg bankEnv s bank msg
    rw [he]
    refine iff_of_false ?_ Bool.false_ne_true
    rintro ⟨t', bank'', h, -⟩
    cases h
  | true =>
    refine iff_of_true ?_ rfl
    cases hpayment : s.paymentAt cfg bankEnv true bank msg with
    | mk t rest =>
      obtain ⟨bank', result⟩ := rest
      have hready := paymentAt_ready hs hpayment
      cases result with
      | error e =>
        refine ⟨_, bank', rfl, .inl ?_⟩
        rcases hready with hsame | ⟨hok, -⟩
        · exact congrArg (· ++ [((-1 : Int), (-1 : Int))]) hsame
        · cases hok
      | ok u =>
        refine ⟨t, bank', rfl, .inr ?_⟩
        rcases hready with hsame | ⟨-, hgrants⟩
        · exact .inl hsame
        · exact .inr hgrants

/-- The handler after a setup message, and the bank connection in the first interval. -/
def exampleSetup : ServerPaymentHandler := (new.handleSetup exampleConfig readyEnv).1

def exampleWallet : BankConnection := { BankConnection.new with currentACoinInterval := 1 }

/-- A payment of one coin for twenty cells in each direction. -/
def examplePaymentMessage : Bytes :=
  [1, 0, 0, 20, 0, 0, 0, 20, 0, 0, 0, 0, 0, 1, 1, 0, 0, 0, 0, 48] ++ List.replicate 95 0 ++ [1]

theorem example_payment_granted :
    (exampleSetup.handlePaymentAt exampleConfig Client.exampleEnvironment true exampleWallet examplePaymentMessage).1.tokens =
      exampleSetup.tokens ++ [(5120, 5120)] ∧
    NeverOverGrants exampleConfig Client.exampleEnvironment true exampleSetup exampleWallet examplePaymentMessage :=
  ⟨by decide +kernel,
    (handle_payment_never_over_grants exampleConfig Client.exampleEnvironment true exampleSetup exampleWallet
      examplePaymentMessage (handleSetup_requested new_requested)).mpr rfl⟩

/-- The bank's answer to a relayed payment comes when Tor has gone: closing the circuit raises again. -/
theorem payment_escapes :
    ¬NeverOverGrants exampleConfig Client.exampleEnvironment false exampleSetup exampleWallet examplePaymentMessage := by
  rintro ⟨t, bank, h, -⟩
  have hraised : (exampleSetup.handlePaymentAt exampleConfig Client.exampleEnvironment false exampleWallet
      examplePaymentMessage).2.2 = .error .torCtlClosed := by decide +kernel
  rw [h] at hraised
  cases hraised

end ServerPaymentHandler

end BitBlinder.Tor
