import Mathlib.Data.List.AList
import BitBlinder.Client.BankMessages
import BitBlinder.Tor.TorMessages

/-!
# Payments at a relay

`ServerPaymentHandler` (`core/tor/ServerPaymentHandler.py`) and the token calls
of `PaymentMessageHandler.py`. What the handler reads from outside while one
message is handled is an `Env`: whether Tor is ready, the bank's interval, and
the outcome of `bank.on_earned_coin` for a coin. `tape` is the
random generator. A handler that raises keeps what it has done before.
-/

namespace BitBlinder.Tor

set_option autoImplicit false

open Struct Client

def PAR_VERSION : Nat := 1
def MAX_MERCHANT_TOKENS : Nat := 4
def COIN_TYPE_A : Nat := 1

def START_READ_TOKENS : Nat := Globals.CELLS_PER_PAYMENT / 2
def START_WRITE_TOKENS : Nat := Globals.CELLS_PER_PAYMENT - START_READ_TOKENS

/-- `Relay.get_cost`. -/
def getCost : Nat := 1

structure RelayConfig where
  acoinKey : PublicKey
  fingerprint : Bytes
  sign : Bytes → Bytes
  tape : Nat → Draw

structure Env where
  isReady : Bool
  interval : Int
  onEarnedCoin : ACoin → PyExcept Unit

/-- A message that waits for the bank's answer to a relayed payment. -/
structure BankRelay where
  responseHop : Nat
  responseMsg : Bytes

/-- `drawn` counts the requests that were started, `tokens` are the calls of `add_tokens`
that reached Tor, `earned` the coins given to `bank.on_earned_coin`, and `startGrants`
counts the completed calls of `add_start_tokens`. -/
structure ServerPaymentHandler where
  baseCircuit : BaseCircuit
  requests : AList (fun _ : Nat => AcoinRequest)
  currentRequestId : Nat
  relays : List BankRelay
  drawn : Nat
  tokens : List (Int × Int)
  startGrants : Nat
  earned : List ACoin

namespace ServerPaymentHandler

def new : ServerPaymentHandler where
  baseCircuit := .new [.setup, .payment, .bankRelay]
  requests := ∅
  currentRequestId := 0
  relays := []
  drawn := 0
  tokens := []
  startGrants := 0
  earned := []

variable (cfg : RelayConfig) (env : Env)

def addTokens (s : ServerPaymentHandler) (readTokens writeTokens : Int) :
    ServerPaymentHandler × PyExcept Unit :=
  if env.isReady then
    ({ s with tokens := s.tokens ++ [(readTokens, writeTokens)] }, .ok ())
  else
    (s, .error .torCtlClosed)

def addStartTokens (s : ServerPaymentHandler) : ServerPaymentHandler × PyExcept Unit :=
  match s.addTokens env START_READ_TOKENS START_WRITE_TOKENS with
  | (s, .ok ()) => ({ s with startGrants := s.startGrants + 1 }, .ok ())
  | (s, .error e) => (s, .error e)

def close (s : ServerPaymentHandler) : ServerPaymentHandler × PyExcept Unit :=
  s.addTokens env (-1) (-1)

def generatePaymentRequestMessage (s : ServerPaymentHandler) : ServerPaymentHandler × PyExcept Bytes :=
  let draw := cfg.tape s.drawn
  let s := { s with drawn := s.drawn + 1 }
  match makeAcoinRequest cfg.acoinKey draw env.interval getCost with
  | .error e => (s, .error e)
  | .ok request =>
    let id := s.currentRequestId
    let s := { s with
      requests := s.requests.insert id request
      currentRequestId := s.currentRequestId + 1 }
    (s, do
      let idBytes ← Basic.writeLong id
      return idBytes ++ request.msg ++ cfg.sign request.msg)

/-- `msg += generate_payment_request_message()`, `k` times. -/
def generateLoop : Nat → ServerPaymentHandler → Bytes → ServerPaymentHandler × PyExcept Bytes
  | 0, s, msg => (s, .ok msg)
  | k + 1, s, msg =>
    match s.generatePaymentRequestMessage cfg env with
    | (s, .error e) => (s, .error e)
    | (s, .ok request) => generateLoop k s (msg ++ request)

def getPrefix : PyExcept Bytes := do
  let version ← Basic.writeByte PAR_VERSION
  let hexId ← Basic.writeHexid cfg.fingerprint
  return version ++ hexId

def sendSetupReply (s : ServerPaymentHandler) : ServerPaymentHandler × PyExcept (List Bytes) :=
  match (do
      let msg ← getPrefix cfg
      let number ← Basic.writeByte MAX_MERCHANT_TOKENS
      return msg ++ number) with
  | .error e => (s, .error e)
  | .ok msg =>
    match generateLoop cfg env MAX_MERCHANT_TOKENS s msg with
    | (s, .error e) => (s, .error e)
    | (s, .ok msg) => (s, s.baseCircuit.sendDirectTorMessage env.isReady msg .setupReply 3 false)

def handleSetup (s : ServerPaymentHandler) : ServerPaymentHandler × PyExcept Unit :=
  match s.sendSetupReply cfg env with
  | (s, .error e) => (s, .error e)
  | (s, .ok _) => s.addStartTokens env

def sendReceiptMessage (s : ServerPaymentHandler) (theirId numTokens : Nat) :
    ServerPaymentHandler × PyExcept (List Bytes) :=
  match (do
      let msg ← getPrefix cfg
      let id ← Basic.writeLong theirId
      let number ← Basic.writeByte numTokens
      return msg ++ id ++ number) with
  | .error e => (s, .error e)
  | .ok msg =>
    match generateLoop cfg env numTokens s msg with
    | (s, .error e) => (s, .error e)
    | (s, .ok msg) => (s, s.baseCircuit.sendDirectTorMessage env.isReady msg .receipt 3 false)

structure PaymentHeader where
  readTokens : Nat
  writeTokens : Nat
  theirId : Nat
  numCoins : Nat
  requests : List Nat

def readRequestIds : Nat → Bytes → PyExcept (List Nat × Bytes)
  | 0, msg => .ok ([], msg)
  | k + 1, msg => do
    let (coinType, msg) ← Basic.readByte msg
    if coinType ≠ COIN_TYPE_A then
      throw (.assertionError "bad coin type")
    else
      let (requestId, msg) ← Basic.readLong msg
      let (requests, msg) ← readRequestIds k msg
      return (requestId :: requests, msg)

/-- The part of `handle_payment` before its loop over the coins. -/
def readHeader (msg : Bytes) : PyExcept (PaymentHeader × Bytes) := do
  let (version, msg) ← Basic.readByte msg
  if version ≠ 1 then
    throw (.assertionError "currently only accept PAR version 1")
  else
    let (readTokens, msg) ← Basic.readInt msg
    let (writeTokens, msg) ← Basic.readInt msg
    let (theirId, msg) ← Basic.readLong msg
    let (numCoins, msg) ← Basic.readByte msg
    let (requests, msg) ← readRequestIds numCoins msg
    if numCoins = 0 then
      throw .zeroDivisionError
    else if msg.length % numCoins ≠ 0 then
      throw (.assertionError "bad payment message length")
    else
      return ({ readTokens, writeTokens, theirId, numCoins, requests }, msg)

/-- One coin: the credits that it is worth. -/
def takeCoin (s : ServerPaymentHandler) (coinLen requestId : Nat) (msg : Bytes) :
    ServerPaymentHandler × PyExcept Nat :=
  match Basic.readByte msg with
  | .error e => (s, .error e)
  | .ok (leading, _) =>
    if leading ≠ 48 then
      (s, .error (.assertionError "bad leading byte in payment message"))
    else
      match s.requests.lookup requestId with
      | none => (s, .error .keyError)
      | some request =>
        let s := { s with requests := s.requests.erase requestId }
        match (do
            let (_, sig) ← Basic.readByte (msg.take coinLen)
            parseAcoinResponse cfg.acoinKey sig request true) with
        | .error e => (s, .error e)
        | .ok none => (s, .error (.exception "Invalid ACoin sent for payment!"))
        | .ok (some coin) =>
          let s := { s with earned := s.earned ++ [coin] }
          match env.onEarnedCoin coin with
          | .error e => (s, .error e)
          | .ok () => (s, .ok coin.value)

def takeCoins (coinLen : Nat) : List Nat → ServerPaymentHandler → Bytes → Nat →
    ServerPaymentHandler × PyExcept Nat
  | [], s, _, creditsEarned => (s, .ok creditsEarned)
  | requestId :: requests, s, msg, creditsEarned =>
    match s.takeCoin cfg env coinLen requestId msg with
    | (s, .error e) => (s, .error e)
    | (s, .ok credits) => takeCoins coinLen requests s (msg.drop coinLen) (creditsEarned + credits)

/-- The body of the `try` statement. -/
def payment (s : ServerPaymentHandler) (msg : Bytes) : ServerPaymentHandler × PyExcept Unit :=
  match readHeader msg with
  | .error e => (s, .error e)
  | .ok (header, msg) =>
    match takeCoins cfg env (msg.length / header.numCoins) header.requests s msg 0 with
    | (s, .error e) => (s, .error e)
    | (s, .ok creditsEarned) =>
      match s.sendReceiptMessage cfg env header.theirId header.numCoins with
      | (s, .error e) => (s, .error e)
      | (s, .ok _) =>
        if s.baseCircuit.isClosed then
          (s, .ok ())
        else
          let requestedTokens := header.readTokens + header.writeTokens
          let paidTokens := creditsEarned * Globals.CELLS_PER_PAYMENT
          if paidTokens < requestedTokens then
            (s, .error (.exception ("Relays asked for " ++ toString requestedTokens ++
              ", but only paid for " ++ toString paidTokens)))
          else
            s.addTokens env header.readTokens header.writeTokens

def handlePayment (s : ServerPaymentHandler) (msg : Bytes) : ServerPaymentHandler × PyExcept Unit :=
  match s.payment cfg env msg with
  | (s, .ok ()) => (s, .ok ())
  | (s, .error _) => s.close env

def readBankRelay (msg : Bytes) : PyExcept BankRelay := do
  let (version, msg) ← Basic.readByte msg
  if version ≠ 1 then
    throw (.assertionError "only accepts version 1 of PAR protocol")
  else
    let (responseHop, msg) ← Basic.readByte msg
    let (_, msg) ← Basic.readLenstr msg
    let (responseMsg, _) ← Basic.readLenstr msg
    return { responseHop, responseMsg }

/-- The relayed message is sent to the bank; the rest waits for the answer. -/
def handleBankRelay (s : ServerPaymentHandler) (msg : Bytes) : ServerPaymentHandler × PyExcept Unit :=
  match readBankRelay msg with
  | .error e => (s, .error e)
  | .ok relay => ({ s with relays := s.relays ++ [relay] }, .ok ())

/-- The callback `success` of a relayed payment. -/
def bankResponse (s : ServerPaymentHandler) (relay : BankRelay) (response : Bytes) :
    ServerPaymentHandler × PyExcept Unit :=
  let responseMsg := relay.responseMsg ++ response
  if relay.responseHop ≠ 0 then
    (s, do
      let _ ← s.baseCircuit.sendDirectTorMessage env.isReady responseMsg .payment relay.responseHop false
      return ())
  else
    s.handlePayment cfg env responseMsg

end ServerPaymentHandler

inductive RelayEvent where
  | setup (env : Env) (msg : Bytes)
  | payment (env : Env) (msg : Bytes)
  | bankRelay (msg : Bytes)
  | bankResponse (env : Env) (j : Nat) (response : Bytes)
  | bankFailure (j : Nat)
  | circuitClosed

namespace ServerPaymentHandler

def step (cfg : RelayConfig) (s : ServerPaymentHandler) : RelayEvent → Option ServerPaymentHandler
  | .setup env _ => some (s.handleSetup cfg env).1
  | .payment env msg => some (s.handlePayment cfg env msg).1
  | .bankRelay msg => some (s.handleBankRelay msg).1
  | .bankResponse env j response =>
    (s.relays[j]?).map fun relay =>
      ({ s with relays := s.relays.eraseIdx j }.bankResponse cfg env relay response).1
  | .bankFailure j =>
    (s.relays[j]?).map fun _ => { s with relays := s.relays.eraseIdx j }
  | .circuitClosed => some { s with baseCircuit := { s.baseCircuit with isClosed := true } }

end ServerPaymentHandler

end BitBlinder.Tor
