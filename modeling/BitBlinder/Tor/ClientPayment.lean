import BitBlinder.Deferred
import BitBlinder.Effects
import BitBlinder.Tor.ServerPayment

/-!
# Payments at the origin of a circuit

`PaymentStream` and `ClientPaymentHandler` of `core/tor`. A stream is known by
its place in `paymentStreams`, and the deferred of a payment by the stream and
the payment's id there; `fired` holds the results that such deferreds have got.
The bank is any state `β` with the call `get_acoins(1)`. The rest of the
program, Tor and the timers are actions; replies to ADDTOKENS arrive in any
order. `history` lists what was received, sent and credited, and no function
reads it. Closing the circuit has no effect here but that the circuit is done.
-/

namespace BitBlinder.Tor

set_option autoImplicit false

open Struct Effects

def BYTES_PER_CELL : Nat := 499

/-- What a payment's deferred carries: `True`, or the `None` of `generic_error_handler`. -/
inductive PaymentResult where
  | received
  | handled

structure PaymentStream where
  hexId : Bytes
  hop : Nat
  paymentTokens : AList (fun _ : Nat => Bytes)
  paymentDeferreds : List Nat
  currentRequestId : Nat
  setupDone : Bool
  version : Nat
  pendingPayments : List (Nat × Nat × Nat)

def PaymentStream.new (hexId : Bytes) (hop : Nat) : PaymentStream where
  hexId := hexId
  hop := hop
  paymentTokens := ∅
  paymentDeferreds := []
  currentRequestId := 0
  setupDone := false
  version := 0
  pendingPayments := []

/-- What `send_payment_request` leaves behind: the list of its deferreds and its timeout. -/
structure Payment where
  readTokens : Nat
  writeTokens : Nat
  paymentsDone : DeferredList (Nat × Nat) PyError PaymentResult
  event : Bool

/-- An ADDTOKENS command that Tor has not answered. -/
inductive TokenRequest where
  | start
  | payment (readTokens writeTokens : Nat)
  deriving DecidableEq

/-- Tor's answer: two numbers, nothing, or a line that does not parse. -/
inductive TokenReply where
  | values (read write : Int)
  | nothing
  | malformed

/-- `addTokens` is the call in `all_receipts_received`, with the deferreds of the payment;
`started` is the call of `start_bank_process`, with the number of tokens it needs and the number
there is; `used` is a merchant's request that goes into a message to the bank, and `starved` is
`popitem` of a dictionary that is empty. -/
inductive Output where
  | receipt (stream ourId : Nat)
  | sent (name : MessageName) (numHops : Nat) (msg : Bytes)
  | addTokens (readTokens writeTokens : Nat) (deferreds : List (Nat × Nat))
  | queued (stream paymentId : Nat)
  | started (stream paymentId needed held : Nat)
  | used (stream requestId : Nat)
  | starved (stream : Nat)
  deriving DecidableEq

structure ClientPaymentHandler (β : Type) where
  bank : β
  isReady : Bool
  baseCircuit : BaseCircuit
  circDone : Bool
  initialTokensAdded : Bool
  payedReadBytes : Int
  payedWriteBytes : Int
  coinsSpent : Nat
  parVersion : Nat
  queuedReadTokens : Nat
  queuedWriteTokens : Nat
  inflightReadTokens : Int
  inflightWriteTokens : Int
  setupStarted : Bool
  setupDone : Bool
  paymentStreams : List PaymentStream
  fired : List ((Nat × Nat) × Except PyError PaymentResult)
  payments : List Payment
  tokenRequests : List TokenRequest
  popped : Nat
  encrypted : Nat
  history : List Output

/-- What the handler gets from outside: coins, signature checks, encryption and the order in
which `values` and `popitem` go through a dictionary. -/
structure PaymentEnvironment (β : Type) where
  getAcoins : EStateM PyError β (List ACoin)
  verify : Bytes → Bytes → Bytes → PyExcept Bool
  encrypt : Nat → Bytes → Bytes
  popitem : Nat → Nat
  values : List PaymentStream → List PaymentStream
  values_perm : ∀ streams, (values streams).Perm streams

abbrev Pay (β : Type) := EStateM PyError (ClientPaymentHandler β)

namespace ClientPaymentHandler
variable {β : Type}

/-- The dictionary of the streams: a relay that comes again replaces its stream. -/
def makeStreams : Nat → List Bytes → List PaymentStream → List PaymentStream
  | _, [], streams => streams
  | hop, hexId :: finalPath, streams =>
    makeStreams (hop + 1) finalPath
      (if streams.any (fun stream => stream.hexId = hexId) then
        streams.map fun stream => if stream.hexId = hexId then .new hexId hop else stream
      else
        streams ++ [.new hexId hop])

def new (env : PaymentEnvironment β) (bank : β) (finalPath : List Bytes) : ClientPaymentHandler β where
  bank := bank
  isReady := true
  baseCircuit := .new [.setupReply, .receipt]
  circDone := false
  initialTokensAdded := false
  payedReadBytes := 0
  payedWriteBytes := 0
  coinsSpent := 0
  parVersion := PAR_VERSION
  queuedReadTokens := 0
  queuedWriteTokens := 0
  inflightReadTokens := 0
  inflightWriteTokens := 0
  setupStarted := false
  setupDone := false
  paymentStreams := env.values (makeStreams 1 finalPath [])
  fired := []
  payments := []
  tokenRequests := []
  popped := 0
  encrypted := 0
  history := []

def output (o : Output) : Pay β Unit := modify fun s => { s with history := s.history ++ [o] }

def getStream (i : Nat) : Pay β PaymentStream := do
  let s ← get
  match s.paymentStreams[i]? with
  | none => throw .keyError
  | some stream => return stream

def setStream (i : Nat) (f : PaymentStream → PaymentStream) : Pay β Unit :=
  modify fun s => { s with paymentStreams := s.paymentStreams.modify i f }

/-- `if not circ.is_done(): circ.close(...)`. -/
def closeCircuit : Pay β Unit := modify fun s => { s with circDone := true }

def sendDirectTorMessage (msg : Bytes) (name : MessageName) (numHops : Nat) : Pay β Unit := do
  let s ← get
  when (!s.circDone) do
    let _ ← attempt (s.baseCircuit.sendDirectTorMessage s.isReady msg name numHops false)
    when (!s.baseCircuit.isClosed) (output (.sent name numHops msg))

/-- `add_tokens`: whether there is a deferred for Tor's answer. -/
def addTokens (request : TokenRequest) : Pay β Bool := do
  let s ← get
  if s.circDone then
    return false
  else if !s.isReady then
    throw .torCtlClosed
  else do
    modify fun s => { s with tokenRequests := s.tokenRequests ++ [request] }
    return true

def genericErrorHandler (_ : PyError) : Except PyError PaymentResult := .ok .handled

def isFailure : Except PyError PaymentResult → Bool
  | .ok _ => false
  | .error _ => true

/-- `all_receipts_received` for the `k`-th payment; there are no results after a timeout. -/
def allReceiptsReceived (k : Nat) (payment : Payment)
    (results : Option (List (Except PyError PaymentResult))) : Pay β Unit :=
  match results with
  | none | some [] => closeCircuit
  | some results =>
    if results.any isFailure then
      closeCircuit
    else do
      modify fun s => { s with payments := s.payments.modify k fun p => { p with event := false } }
      output (.addTokens payment.readTokens payment.writeTokens payment.paymentsDone.deferreds)
      let _ ← addTokens (.payment payment.readTokens payment.writeTokens)

/-- The callback of a payment's list; what it raises stays in the deferred. -/
def listFired (k : Nat) (payment : Payment) : Pay β Unit :=
  match payment.paymentsDone.results with
  | none => return ()
  | some results => rescue (allReceiptsReceived k payment (some results)) (return ())

/-- `callback` or `errback` of a payment's deferred, with all that it triggers. -/
def fire (d : Nat × Nat) (result : Except PyError PaymentResult) : Pay β Unit := do
  let result := addErrback genericErrorHandler result
  modify fun s => { s with fired := s.fired ++ [(d, result)] }
  let s ← get
  match s.payments.findIdx? (fun payment => d ∈ payment.paymentsDone.deferreds) with
  | none => return ()
  | some k => do
    modify fun s => { s with payments := s.payments.modify k fun payment =>
      { payment with paymentsDone := payment.paymentsDone.collect d result } }
    let s ← get
    match s.payments[k]? with
    | none => return ()
    | some payment => listFired k payment

/-! ### `PaymentStream` -/

def numPayments (readTokens writeTokens : Nat) : Nat :=
  (readTokens + writeTokens) / Globals.CELLS_PER_PAYMENT

def unpackToken (token : Bytes) : PyExcept (Nat × Bytes × Bytes) :=
  if token.length = 4 + Globals.ACOIN_KEY_BYTES + Globals.TOR_ID_KEY_BYTES then
    .ok (unpackBE (token.take 4), (token.drop 4).take Globals.ACOIN_KEY_BYTES,
      token.drop (4 + Globals.ACOIN_KEY_BYTES))
  else
    .error .structError

/-- The `while` loop of `read_payment_tokens`; each pass consumes a byte at least. -/
def readTokens (env : PaymentEnvironment β) (i tokenSize : Nat) : Nat → Bytes → Pay β Bool
  | 0, _ => return true
  | fuel + 1, msg =>
    if msg = [] then
      return true
    else do
      let stream ← getStream i
      let (requestId, token, tokenSig) ← attempt (unpackToken (msg.take tokenSize))
      let valid ← attempt (env.verify stream.hexId token tokenSig)
      let s ← get
      if !valid ∧ !s.circDone then do
        closeCircuit
        return false
      else do
        setStream i fun stream =>
          { stream with paymentTokens := stream.paymentTokens.insert requestId token }
        readTokens env i tokenSize fuel (msg.drop tokenSize)

def readPaymentTokens (env : PaymentEnvironment β) (i : Nat) (msg : Bytes) : Pay β Bool := do
  let (numTokens, msg) ← attempt (Basic.readByte msg)
  if numTokens = 0 then
    throw .zeroDivisionError
  else if msg.length % numTokens ≠ 0 then
    throw (.assertionError "bad payment token message")
  else
    readTokens env i (msg.length / numTokens) msg.length msg

/-- `self.paymentTokens.popitem()`. -/
def popitem (env : PaymentEnvironment β) (i : Nat) : Pay β (Nat × Bytes) := do
  let stream ← getStream i
  let s ← get
  modify fun s => { s with popped := s.popped + 1 }
  let entries := stream.paymentTokens.entries
  match entries[env.popitem s.popped % entries.length]? with
  | none => do
    output (.starved i)
    throw .keyError
  | some ⟨requestId, token⟩ => do
    setStream i fun stream => { stream with paymentTokens := stream.paymentTokens.erase requestId }
    return (requestId, token)

/-- `bank.get_acoins(1)`. -/
def getAcoins (env : PaymentEnvironment β) : Pay β (List ACoin) := fun s =>
  match env.getAcoins s.bank with
  | .ok coins bank => .ok coins { s with bank }
  | .error e bank => .error e { s with bank }

/-- Taking a payment's deferred out of the dictionary and firing it. -/
def finishPayment (i paymentId : Nat) (result : Except PyError PaymentResult) : Pay β Unit := do
  let stream ← getStream i
  if paymentId ∈ stream.paymentDeferreds then do
    setStream i fun stream => { stream with paymentDeferreds := stream.paymentDeferreds.erase paymentId }
    fire (i, paymentId) result
  else
    throw .keyError

/-- The loop of `start_bank_process`; there is no message when the coins have run out. -/
def payLoop (env : PaymentEnvironment β) (i paymentId : Nat) :
    Nat → Bytes → Bytes → Pay β (Option (Bytes × Bytes))
  | 0, msg, bankMsg => return some (msg, bankMsg)
  | k + 1, msg, bankMsg => do
    let (requestId, token) ← popitem env i
    let coin ← getAcoins env
    match coin with
    | [] => do
      finishPayment i paymentId (.error (.insufficientACoins "No ACoins left."))
      return none
    | coin :: _ => do
      modify fun s => { s with coinsSpent := s.coinsSpent + 1 }
      let coinBytes ← attempt coin.writeBinary
      let type ← attempt (Basic.writeByte COIN_TYPE_A)
      let idBytes ← attempt (Basic.writeLong requestId)
      output (.used i requestId)
      payLoop env i paymentId k (msg ++ type ++ idBytes) (bankMsg ++ coinBytes ++ token)

def paymentHeader (readTokens writeTokens paymentId : Nat) : PyExcept Bytes := do
  let version ← Basic.writeByte PAR_VERSION
  let reads ← Basic.writeInt readTokens
  let writes ← Basic.writeInt writeTokens
  let id ← Basic.writeLong paymentId
  let number ← Basic.writeByte (numPayments readTokens writeTokens)
  return version ++ reads ++ writes ++ id ++ number

def relayMessage (hop : Nat) (bankMsg msg : Bytes) : PyExcept Bytes := do
  let version ← Basic.writeByte PAR_VERSION
  let hop ← Basic.writeByte hop
  let bankMsg ← Basic.writeLenstr bankMsg
  let msg ← Basic.writeLenstr msg
  return version ++ hop ++ bankMsg ++ msg

/-- The number of tokens that stream `i` has. -/
def held (s : ClientPaymentHandler β) (i : Nat) : Nat :=
  match s.paymentStreams[i]? with
  | none => 0
  | some stream => stream.paymentTokens.entries.length

def startBankProcess (env : PaymentEnvironment β) (i readTokens writeTokens paymentId : Nat) :
    Pay β Unit := do
  let s ← get
  output (.started i paymentId (numPayments readTokens writeTokens) (s.held i))
  let msg ← attempt (paymentHeader readTokens writeTokens paymentId)
  let number ← attempt (Basic.writeByte (numPayments readTokens writeTokens))
  let paid ← payLoop env i paymentId (numPayments readTokens writeTokens) msg number
  match paid with
  | none => return ()
  | some (msg, bankMsg) => do
    let stream ← getStream i
    let s ← get
    modify fun s => { s with encrypted := s.encrypted + 1 }
    -- the message of an encrypted datagram, and the payment in it
    let bankMsg := 1 :: env.encrypt s.encrypted (3 :: bankMsg)
    let msg ← attempt (relayMessage (stream.hop - 1) bankMsg msg)
    sendDirectTorMessage msg .bankRelay 1

/-- If there are not enough tokens left, a payment waits for more. -/
def queueOrStart (env : PaymentEnvironment β) (i readTokens writeTokens curId : Nat) : Pay β Unit := do
  let stream ← getStream i
  if stream.paymentTokens.entries.length < numPayments readTokens writeTokens then do
    output (.queued i curId)
    setStream i fun stream => { stream with
      pendingPayments := stream.pendingPayments ++ [(readTokens, writeTokens, curId)] }
  else
    startBankProcess env i readTokens writeTokens curId

def sendPayment (env : PaymentEnvironment β) (readTokens writeTokens i : Nat) : Pay β (Nat × Nat) := do
  let stream ← getStream i
  let curId := stream.currentRequestId
  setStream i fun stream => { stream with
    currentRequestId := stream.currentRequestId + 1
    paymentDeferreds := stream.paymentDeferreds ++ [curId] }
  if MAX_MERCHANT_TOKENS < numPayments readTokens writeTokens then
    throw (.assertionError "not enough merchant tokens to send payments")
  else do
    queueOrStart env i readTokens writeTokens curId
    return (i, curId)

/-- The start of a payment that has waited for tokens. The number of waiting payments is what
the source compares with. -/
def startPending (env : PaymentEnvironment β) (i : Nat) : Pay β Unit := do
  let stream ← getStream i
  match stream.pendingPayments with
  | [] => return ()
  | (readTokens, writeTokens, paymentId) :: pending =>
    when (numPayments readTokens writeTokens ≤ stream.pendingPayments.length) do
      setStream i fun stream => { stream with pendingPayments := pending }
      startBankProcess env i readTokens writeTokens paymentId

/-- `PaymentStream.handle_setup_reply`. -/
def streamSetupReply (env : PaymentEnvironment β) (i version : Nat) (msg : Bytes) : Pay β Unit := do
  setStream i fun stream => { stream with version }
  let valid ← readPaymentTokens env i msg
  when valid (setStream i fun stream => { stream with setupDone := true })

/-- `PaymentStream.handle_receipt`. -/
def streamReceipt (env : PaymentEnvironment β) (i : Nat) (msg : Bytes) : Pay β Unit := do
  let (ourId, msg) ← attempt (Basic.readLong msg)
  let valid ← readPaymentTokens env i msg
  when valid do
    output (.receipt i ourId)
    startPending env i
    finishPayment i ourId (.ok .received)

/-! ### `ClientPaymentHandler` -/

/-- `get_payment_stream`: the place of the stream. -/
def getPaymentStream (s : ClientPaymentHandler β) (msg : Bytes) : PyExcept (Nat × Bytes) := do
  let (hexId, msg) ← Basic.readHexid msg
  match s.paymentStreams.findIdx? (fun stream => stream.hexId = hexId) with
  | none => throw .keyError
  | some i => return (i, msg)

def sendSetups : List PaymentStream → Pay β Unit
  | [] => return ()
  | stream :: streams => do
    let version ← attempt (Basic.writeByte PAR_VERSION)
    sendDirectTorMessage version .setup stream.hop
    sendSetups streams

def sendSetupMessage : Pay β Unit := do
  let s ← get
  when (!s.setupStarted) do
    modify fun s => { s with
      setupStarted := true
      inflightReadTokens := s.inflightReadTokens + START_READ_TOKENS
      inflightWriteTokens := s.inflightWriteTokens + START_WRITE_TOKENS }
    sendSetups s.paymentStreams

/-- `handle_setup_reply`. The queued amounts are set to zero before they are tested, so the
request for them is never sent. -/
def handleSetupReply (env : PaymentEnvironment β) (msg : Bytes) : Pay β Unit := do
  let (forwardParVersion, msg) ← attempt (Basic.readByte msg)
  modify fun s => { s with parVersion := min s.parVersion forwardParVersion }
  let s ← get
  let (i, msg) ← attempt (s.getPaymentStream msg)
  streamSetupReply env i forwardParVersion msg
  let s ← get
  when (s.paymentStreams.all PaymentStream.setupDone) do
    let started ← addTokens .start
    if !started then
      closeCircuit
    else
      modify fun s => { s with setupDone := true, queuedReadTokens := 0, queuedWriteTokens := 0 }

/-- `send_payment` of each stream. -/
def sendPayments (env : PaymentEnvironment β) (readTokens writeTokens : Nat) :
    List Nat → Pay β (List (Nat × Nat))
  | [] => return []
  | i :: streams => do
    let deferred ← sendPayment env readTokens writeTokens i
    let deferreds ← sendPayments env readTokens writeTokens streams
    return deferred :: deferreds

/-- The result that a deferred has got. -/
def resultOf (s : ClientPaymentHandler β) (d : Nat × Nat) : Option (Except PyError PaymentResult) :=
  (s.fired.find? fun e => e.1 = d).map Prod.snd

/-- The second half of `send_payment_request`, from the `DeferredList` on. -/
def awaitReceipts (readTokens writeTokens : Nat) (deferreds : List (Nat × Nat)) : Pay β Unit := do
  let s ← get
  let payment : Payment :=
    { readTokens, writeTokens, paymentsDone := .new deferreds s.resultOf, event := true }
  modify fun s => { s with
    payments := s.payments ++ [payment]
    inflightReadTokens := s.inflightReadTokens + readTokens
    inflightWriteTokens := s.inflightWriteTokens + writeTokens }
  listFired s.payments.length payment

def sendPaymentRequest (env : PaymentEnvironment β) (readTokens writeTokens : Nat) : Pay β Unit := do
  let s ← get
  if numPayments readTokens writeTokens = 0 then
    throw (.assertionError "tried to pay for bad number of cells")
  else if !s.setupDone then do
    sendSetupMessage
    modify fun s => { s with
      queuedReadTokens := s.queuedReadTokens + readTokens
      queuedWriteTokens := s.queuedWriteTokens + writeTokens }
  else
    when (!s.circDone) do
      let deferreds ← sendPayments env readTokens writeTokens (List.range s.paymentStreams.length)
      awaitReceipts readTokens writeTokens deferreds

def handleReceipt (env : PaymentEnvironment β) (msg : Bytes) : Pay β Unit := do
  let (_, msg) ← attempt (Basic.readByte msg)
  let s ← get
  let (i, msg) ← attempt (s.getPaymentStream msg)
  streamReceipt env i msg

/-- `_add_tokens_callback` up to the point where it reads the result. -/
def settleTokens (readTokens writeTokens : Nat) : Pay β Unit :=
  modify fun s => { s with
    inflightReadTokens := s.inflightReadTokens - readTokens
    inflightWriteTokens := s.inflightWriteTokens - writeTokens }

/-- `handle_token_response`. -/
def handleTokenResponse (read write : Int) : Pay β Unit :=
  modify fun s => { s with
    payedReadBytes := read * BYTES_PER_CELL
    payedWriteBytes := write * BYTES_PER_CELL }

/-- Tor's answer to an ADDTOKENS command. The callback of the start tokens also runs when there
is no result, and then fails once it has changed the amounts. -/
def tokensAdded : TokenRequest → TokenReply → Pay β Unit
  | .start, .values read write => do
    modify fun s => { s with initialTokensAdded := true }
    settleTokens START_READ_TOKENS START_WRITE_TOKENS
    handleTokenResponse read write
  | .start, .nothing => do
    modify fun s => { s with initialTokensAdded := true }
    settleTokens START_READ_TOKENS START_WRITE_TOKENS
  | .payment readTokens writeTokens, .values read write => do
    settleTokens readTokens writeTokens
    handleTokenResponse read write
  | _, _ => return ()

/-! ### Runs -/

/-- The calls made by the circuit and its timers, the messages and replies that arrive, and what
changes from outside: the bank, Tor and the circuit. -/
inductive Action (β : Type) where
  | sendSetupMessage
  | setupTimeout
  | setupReply (msg : Bytes)
  | sendPaymentRequest (readTokens writeTokens : Nat)
  | receipt (msg : Bytes)
  | paymentTimeout (k : Nat)
  | tokensAdded (k : Nat) (reply : TokenReply)
  | bank (bank : β)
  | torReady (isReady : Bool)
  | circuitDone
  | circuitClosed

/-- Exceptions that leave a call are logged by its caller or by the reactor. -/
def step (env : PaymentEnvironment β) (s : ClientPaymentHandler β) :
    Action β → Option (ClientPaymentHandler β)
  | .sendSetupMessage => some (finish sendSetupMessage s)
  | .setupTimeout => if s.setupStarted ∧ !s.setupDone then some (finish closeCircuit s) else none
  | .setupReply msg => some (finish (handleSetupReply env msg) s)
  | .sendPaymentRequest readTokens writeTokens =>
    some (finish (sendPaymentRequest env readTokens writeTokens) s)
  | .receipt msg => some (finish (handleReceipt env msg) s)
  | .paymentTimeout k =>
    match s.payments[k]? with
    | none => none
    | some payment =>
      if payment.event then
        some (finish (allReceiptsReceived k payment none)
          { s with payments := s.payments.modify k fun p => { p with event := false } })
      else
        none
  | .tokensAdded k reply => (s.tokenRequests[k]?).map fun request =>
      finish (tokensAdded request reply) { s with tokenRequests := s.tokenRequests.eraseIdx k }
  | .bank bank => some { s with bank }
  | .torReady isReady => some { s with isReady }
  | .circuitDone => some { s with circDone := true }
  | .circuitClosed => some { s with baseCircuit := { s.baseCircuit with isClosed := true } }

end ClientPaymentHandler

end BitBlinder.Tor
