import BitBlinder.Effects
import BitBlinder.Client.BankMessages
import BitBlinder.Client.Wallet

/-!
# The client's connection to the bank

`BankConnection` (`core/bank/Bank.py`) with the login, request and deposit
factories and protocols of `core/bank`. The reactor's part of the state is the
list of open connections; `history` lists what the connection has given to the
outside, and no function reads it. An `Environment` is what the connection
reads from outside; its tapes are read one place at a time, so nothing is
assumed about the clock, the random generator or the order in which Python
iterates over a set.

`ProgramState.DEBUG` is `False`, so the balances forced by the test window are
not there. Addresses, the user interface and the periodic timers are left out:
the calls the timers make are actions that may happen at any time. Files are
written without error, and `on_login_success` finds any contents in them.
-/

namespace BitBlinder.Client

set_option autoImplicit false

open Struct Effects

def ACOIN_LOW_LEVEL : Nat := 20
def ACOIN_HIGH_LEVEL : Nat := 100
def ACOIN_BATCH_SIZE : Nat := 30
def BALANCE_POLL_TIMEOUT : Rat := 900
def PROTOCOL_VERSION : Nat := 1

/-- The size of `SymmetricKey.MESSAGE_FORMAT`. -/
def AUTH_BLOB_SIZE : Nat := 80

structure Environment where
  bankKey : PublicKey
  bankKey_fits : bankKey.n ≤ 256 ^ Globals.ACOIN_KEY_BYTES
  decrypt : Bytes → Bytes → Option Bytes
  time : Nat → Rat
  random : Nat → Rat
  draw : Nat → Draw
  iterate : Nat → List ACoin → List ACoin
  iterate_perm : ∀ n coins, (iterate n coins).Perm coins

inductive Message where
  | request (value number : Nat) (requests : List AcoinRequest)
  | deposit (coins : List ACoin) (finishedDeferred gotResponse : Bool)
  deriving DecidableEq

inductive Factory where
  | login (done : Bool)
  | message (m : Message)
  deriving DecidableEq

namespace Factory

/-- `self.factory.done = True`. -/
def setDone : Factory → Factory
  | login _ => login true
  | message m => message m

/-- Assigning attributes of a request or deposit factory. -/
def setMessage (m : Message) : Factory → Factory
  | login done => login done
  | message _ => message m

def isMessage : Factory → Bool
  | login _ => false
  | message _ => true

end Factory

structure Connection where
  factory : Factory
  made : Bool
  deriving DecidableEq

inductive CoinFile where
  | acoins
  | acoinsInDeposit

/-- What leaves the bank connection: the number in a message prefix, a message before
encryption, a file written, a coin given to a spender, and what a reply was read as. -/
inductive Output where
  | packed (messageNum : Nat)
  | sent (msg : Bytes)
  | wrote (file : CoinFile) (data : Bytes)
  | returned (coin : ACoin)
  | newBalance (balance : Nat)
  | newInfo (balance interval expiresCurrent expiresNext : Nat)
  | signatures (sigs : List Bytes)
  | status (coin : ACoin) (status : UInt8)

/-- The attributes that `on_new_info` creates. -/
structure IntervalTimes where
  curIntervalExpiration : Rat
  beginDepositACoinTime : Rat
  sendOldACoinCutoff : Rat
  intervalLearningDelay : Rat

structure BankConnection where
  isLoggedIn : Bool
  startupDeferred : Bool
  shutdownDeferred : Bool
  loginInProgress : Bool
  secretKey : Option Bytes
  ACoins : Wallet
  depositingACoins : List ACoin
  coinsChanged : Bool
  filesNamed : Bool
  currentACoinInterval : Int
  intervalTimes : Option IntervalTimes
  lastBankBalance : Nat
  balanceLastUpdatedAt : Rat
  creditsSpent : Int
  creditsEarned : Nat
  messageQueue : List Message
  messageInProgress : Bool
  messageNum : Nat
  acoinRequestInProgress : Bool
  acoinDepositInProgress : Bool
  connections : List Connection
  clockReads : Nat
  randomReads : Nat
  drawn : Nat
  iterations : Nat
  history : List Output

abbrev Py := EStateM PyError BankConnection

namespace BankConnection

def new : BankConnection where
  isLoggedIn := false
  startupDeferred := false
  shutdownDeferred := false
  loginInProgress := false
  secretKey := none
  ACoins := .empty
  depositingACoins := []
  coinsChanged := false
  filesNamed := false
  currentACoinInterval := 0
  intervalTimes := none
  lastBankBalance := 0
  balanceLastUpdatedAt := 0
  creditsSpent := 0
  creditsEarned := 0
  messageQueue := []
  messageInProgress := false
  messageNum := 0
  acoinRequestInProgress := false
  acoinDepositInProgress := false
  connections := []
  clockReads := 0
  randomReads := 0
  drawn := 0
  iterations := 0
  history := []

def isStopping (s : BankConnection) : Bool := s.shutdownDeferred

def isStarting (s : BankConnection) : Bool := s.startupDeferred

def getWalletBalance (s : BankConnection) : Nat :=
  ((s.ACoins.sets.entries.filter fun e =>
      e.1 = s.currentACoinInterval ∨ e.1 = s.currentACoinInterval - 1).map
    fun e => ACoin.VALUE * e.2.length).sum

def getExpectedBalance (s : BankConnection) : Nat := s.lastBankBalance + s.getWalletBalance

def output (o : Output) : Py Unit := modify fun s => { s with history := s.history ++ [o] }

/-- `time.time()`. -/
def readClock (env : Environment) : Py Rat := do
  let s ← get
  modify fun s => { s with clockReads := s.clockReads + 1 }
  return env.time s.clockReads

/-- `random.random()`. -/
def readRandom (env : Environment) : Py Rat := do
  let s ← get
  modify fun s => { s with randomReads := s.randomReads + 1 }
  return env.random s.randomReads

/-- The blinding factor and the receipt of the next request. -/
def nextDraw (env : Environment) : Py Draw := do
  let s ← get
  modify fun s => { s with drawn := s.drawn + 1 }
  return env.draw s.drawn

/-- A new iteration over sets of coins: the order in which it meets them. -/
def nextOrder (env : Environment) : Py (List ACoin → List ACoin) := do
  let s ← get
  modify fun s => { s with iterations := s.iterations + 1 }
  return env.iterate s.iterations

def setFactory (j : Nat) (f : Factory → Factory) : Py Unit :=
  modify fun s => { s with
    connections := s.connections.modify j fun c => { c with factory := f c.factory } }

def sendNextMessage (m : Message) : Py Unit :=
  modify fun s => { s with
    messageNum := s.messageNum + 1
    connections := s.connections ++ [{ factory := .message m, made := false }] }

def sendMessage (m : Message) : Py Unit := do
  let s ← get
  if !s.messageInProgress then do
    modify fun s => { s with messageInProgress := true }
    sendNextMessage m
  else
    modify fun s => { s with messageQueue := s.messageQueue ++ [m] }

def onBankMessageDone : Py Unit := do
  let s ← get
  match s.messageQueue with
  | [] => modify fun s => { s with messageInProgress := false }
  | m :: queue => do
    modify fun s => { s with messageQueue := queue }
    sendNextMessage m

def makeBankPrefix (protocolVersion request : Nat) : Py Bytes := do
  let s ← get
  let head ← attempt (Basic.structPack [.B, .H, .B] (protocolVersion, s.messageNum, request, ()))
  output (.packed s.messageNum)
  return head

/-- `encrypt_message` and `sendString`. -/
def sendEncrypted (msg : Bytes) : Py Unit := do
  let s ← get
  if !s.isLoggedIn then
    throw (.exception "Must be logged in to bank to send encrypted messages!")
  else
    match s.secretKey with
    | none => throw .attributeError
    | some _ => output (.sent msg)

def decryptMessage (env : Environment) (msg : Bytes) : Py Bytes := do
  let s ← get
  if !s.isLoggedIn then
    throw (.exception "Must be logged in to decrypt messages from the bank!")
  else
    match s.secretKey with
    | none => throw .attributeError
    | some key =>
      match env.decrypt key msg with
      | none => throw (.exception "HMAC does not authenticate, is something bad going on?")
      | some msg => return msg

def getAcoinKey (env : Environment) (value : Nat) : PyExcept PublicKey :=
  if value = 0 then
    .error (.exception "ACoin has no value set, cannot determine bank key")
  else if value ≠ 1 then
    .error (.exception ("No bank key is known to generate an ACoin with a value of " ++ toString value))
  else
    .ok env.bankKey

/-- The loop of `ACoinRequestFactory.__init__`. -/
def makeRequests (env : Environment) (interval : Int) (value : Nat) : Nat → Py (List AcoinRequest)
  | 0 => return []
  | k + 1 => do
    let bankKey ← attempt (getAcoinKey env value)
    let draw ← nextDraw env
    let request ← attempt (makeAcoinRequest bankKey draw interval value)
    let requests ← makeRequests env interval value k
    return request :: requests

/-- `while value*number > self.lastBankBalance: number -= 1`. -/
def affordable (value balance : Nat) : Nat → Nat
  | 0 => 0
  | number + 1 =>
    if value * (number + 1) > balance then affordable value balance number else number + 1

def requestCoins (env : Environment) (value number : Nat) : Py Unit := do
  let s ← get
  let number := affordable value s.lastBankBalance number
  when (!s.isStopping ∧ !s.acoinRequestInProgress ∧ 0 < number) do
    modify fun s => { s with acoinRequestInProgress := true }
    let requests ← makeRequests env s.currentACoinInterval value number
    sendMessage (.request value number requests)

def checkWalletBalance (env : Environment) : Py Unit := do
  let s ← get
  when (s.isLoggedIn ∧ s.getWalletBalance < ACOIN_LOW_LEVEL) (requestCoins env 1 ACOIN_BATCH_SIZE)

/-- `coins` is empty where the source passes `None`. -/
def depositAcoins (coins : List ACoin) : Py Unit := do
  let s ← get
  when (!s.isStopping) do
    modify fun s => { s with
      depositingACoins := coins.foldl
        (fun depositing coin => if Among coin depositing then depositing else depositing ++ [coin])
        s.depositingACoins }
    sendMessage (.deposit coins false false)

def addAcoin (coin : ACoin) : Py Unit := do
  let s ← get
  if s.ACoins.Holds coin then
    throw (.exception "This ACoin has already been deposited to the local store!")
  else
    modify fun s => { s with ACoins := s.ACoins.add coin, coinsChanged := true }

def removeCoin (coin : ACoin) : Py Bool := do
  let s ← get
  if s.ACoins.Holds coin then do
    modify fun s => { s with ACoins := s.ACoins.remove coin, coinsChanged := true }
    return true
  else
    return false

def removeCoins : List ACoin → Py Unit
  | [] => return ()
  | coin :: coins => do
    let _ ← removeCoin coin
    removeCoins coins

def getAcoins (env : Environment) (value : Int) (countAsSpent : Bool) : Py (List ACoin) := do
  let curTime ← readClock env
  let order ← nextOrder env
  let s ← get
  let coins ← attempt (s.ACoins.gatherCoins s.currentACoinInterval
    (s.intervalTimes.map IntervalTimes.sendOldACoinCutoff) curTime order value s.ACoins.sortedKeys [])
  if Wallet.coinsValue coins < value then
    return []
  else do
    removeCoins coins
    checkWalletBalance env
    when countAsSpent (modify fun s => { s with creditsSpent := s.creditsSpent + value })
    return coins

def onNewBalanceFromBank (env : Environment) (newBalance : Nat) : Py Unit := do
  output (.newBalance newBalance)
  let curTime ← readClock env
  modify fun s => { s with lastBankBalance := newBalance, balanceLastUpdatedAt := curTime }
  checkWalletBalance env

/-- What `on_new_info` stores about a new interval. -/
def learnInterval (curTime random₁ random₂ : Rat) (interval expiresCurrent expiresNext : Nat)
    (s : BankConnection) : BankConnection :=
  let expiresCurrent := expiresCurrent + curTime
  let expiresNext := expiresNext + curTime
  let approxIntervalLen := expiresNext - expiresCurrent
  { s with
    ACoins := s.ACoins.delete (s.currentACoinInterval - 1)
    currentACoinInterval := interval
    intervalTimes := some {
      curIntervalExpiration := expiresCurrent
      beginDepositACoinTime :=
        expiresCurrent - (1 / 10) * approxIntervalLen - random₁ * ((3 / 10) * approxIntervalLen)
      sendOldACoinCutoff := expiresCurrent - (1 / 10) * approxIntervalLen
      intervalLearningDelay := random₂ * ((1 / 4) * approxIntervalLen) } }

def onNewInfo (env : Environment) (balance interval expiresCurrent expiresNext : Nat) : Py Unit := do
  output (.newInfo balance interval expiresCurrent expiresNext)
  let s ← get
  when (s.currentACoinInterval < interval) do
    let curTime ← readClock env
    let random₁ ← readRandom env
    let random₂ ← readRandom env
    modify (learnInterval curTime random₁ random₂ interval expiresCurrent expiresNext)
  onNewBalanceFromBank env balance

def onEarnedCoin (env : Environment) (coin : ACoin) : Py Unit := do
  let s ← get
  let bankKey ← attempt (getAcoinKey env coin.value)
  attempt (coin.validate bankKey ACoin.isFreshClient s.currentACoinInterval)
  addAcoin coin
  modify fun s => { s with creditsEarned := s.creditsEarned + coin.value }

def checkNextAcoins (env : Environment) : Py Unit := do
  let s ← get
  when ((s.ACoins.coinsOf s.currentACoinInterval).length ≤ 0) (requestCoins env 1 ACOIN_BATCH_SIZE)

def onUpdate (env : Environment) : Py Unit := do
  let curTime ← readClock env
  let s ← get
  when (s.isLoggedIn ∧ s.getExpectedBalance ≤ 0 ∧
      s.balanceLastUpdatedAt + BALANCE_POLL_TIMEOUT < curTime ∧ !s.acoinDepositInProgress) do
    modify fun s => { s with acoinDepositInProgress := true }
    depositAcoins []

/-! ### Saving and loading -/

def writeCoins : List ACoin → PyExcept Bytes
  | [] => .ok []
  | coin :: coins => do
    let head ← coin.writeBinary
    let rest ← writeCoins coins
    return head ++ rest

/-- The coins that `save_coins` writes to the first file: sets that are too old are left out. -/
def coinsToSave (s : BankConnection) : List ACoin :=
  (s.ACoins.sets.entries.filter fun e =>
    ¬(e.1 < s.currentACoinInterval - 1 ∧ e.2.length ≠ 0)).flatMap Sigma.snd

def saveCoins : Py Unit := do
  let s ← get
  when s.coinsChanged do
    rescue
      (do
        when s.filesNamed do
          let data ← attempt (writeCoins s.coinsToSave)
          output (.wrote .acoins data)
          let data ← attempt (writeCoins s.depositingACoins)
          output (.wrote .acoinsInDeposit data)
        modify fun s => { s with coinsChanged := false })
      (return ())

/-- The `while` loop of `read` in `load_coins`; every pass consumes at least one byte of
`data`, whose length is the fuel. -/
def readCoins (addFunc : ACoin → Py Unit) : Nat → Bytes → Py Unit
  | 0, _ => return ()
  | fuel + 1, data => do
    let s ← get
    when (0 < data.length) do
      let (coin, data) ← attempt (ACoin.readBinary data)
      when (coin.isFreshClient s.currentACoinInterval) (addFunc coin)
      readCoins addFunc fuel data

def readFile (addFunc : ACoin → Py Unit) : Option Bytes → Py Unit
  | none => return ()
  | some data => readCoins addFunc data.length data

def appendDepositing (coin : ACoin) : Py Unit :=
  modify fun s => { s with depositingACoins := s.depositingACoins ++ [coin] }

def loadCoins (acoins acoinsInDeposit : Option Bytes) : Py Unit :=
  rescue
    (do
      let s ← get
      when (s.ACoins.sets.entries ≠ []) (throw (.assertionError "must not load coins more than once?"))
      readFile addAcoin acoins
      let s ← get
      when (s.depositingACoins ≠ []) (throw (.assertionError "cannot deposit coins while loading?"))
      readFile appendDepositing acoinsInDeposit)
    (return ())

/-! ### Deposits -/

/-- The part of `update_coins` that takes stale coins out of the wallet. -/
def takeStale (env : Environment) (curTime : Rat) (times : IntervalTimes) (coins : List ACoin) :
    Py (List ACoin) := do
  let order ← nextOrder env
  let s ← get
  let newCoins := (order (s.ACoins.coinsOf (s.currentACoinInterval - 1))).take ACOIN_BATCH_SIZE
  if times.beginDepositACoinTime < curTime ∧ newCoins ≠ [] then do
    removeCoins newCoins
    checkWalletBalance env
    return coins ++ newCoins
  else
    return coins

/-- The part of `update_coins` that takes coins out when there are too many. -/
def takeSurplus (env : Environment) (coins : List ACoin) : Py (List ACoin) := do
  let s ← get
  if ACOIN_HIGH_LEVEL < s.getWalletBalance then do
    let newCoins ← getAcoins env ACOIN_BATCH_SIZE false
    return coins ++ newCoins
  else
    return coins

/-- The `try` block of `update_coins` after the first balance check. -/
def collectDeposit (env : Environment) : Py Unit := do
  let curTime ← readClock env
  let s ← get
  match s.intervalTimes with
  | none => throw .attributeError
  | some times => do
    let coins ← takeStale env curTime times s.depositingACoins
    let coins ← takeSurplus env coins
    when (coins ≠ [] ∨ times.curIntervalExpiration + times.intervalLearningDelay < curTime) do
      modify fun s => { s with acoinDepositInProgress := true }
      depositAcoins coins

def updateCoins (env : Environment) : Py Unit := do
  rescue
    (do
      checkWalletBalance env
      let s ← get
      when (!s.acoinDepositInProgress) (collectDeposit env))
    (return ())
  saveCoins

def shutdownDone : Py Unit :=
  modify fun s => { s with shutdownDeferred := false, isLoggedIn := false }

/-- `_shutdown_success`: `callback` is called on `None` when the timeout came first. -/
def shutdownSuccess : Py Unit := do
  modify fun s => { s with coinsChanged := true }
  saveCoins
  let s ← get
  if s.shutdownDeferred then shutdownDone else throw .attributeError

/-- `_shutdown_failure`: `coinsToDeposit` is a local variable of `stop`. -/
def shutdownFailure : Py Unit := throw .nameError

def stop (env : Environment) : Py Unit := do
  let s ← get
  when (!s.shutdownDeferred) do
    modify fun s => { s with messageQueue := [] }
    if !s.isLoggedIn then
      when s.isStarting (modify fun s => { s with loginInProgress := false, startupDeferred := false })
    else do
      let order ← nextOrder env
      let coins := order s.ACoins.coins
      modify fun s => { s with
        shutdownDeferred := true
        ACoins := .empty
        depositingACoins := s.depositingACoins ++ coins
        coinsChanged := true }
      saveCoins
      let s ← get
      let coinsToDeposit := if !s.acoinDepositInProgress then s.depositingACoins else coins
      sendMessage (.deposit coinsToDeposit true false)

/-! ### Factories and protocols -/

def onLoginFailure : Py Unit := do
  let s ← get
  when s.startupDeferred (modify fun s => { s with loginInProgress := false })

def onLoginSuccess (env : Environment) (authBlob : Bytes) (acoins acoinsInDeposit : Option Bytes) :
    Py Unit := do
  let s ← get
  when s.startupDeferred do
    modify fun s => { s with loginInProgress := false }
    if authBlob.length ≠ AUTH_BLOB_SIZE then
      throw .structError
    else do
      modify fun s => { s with secretKey := some authBlob }
      when (!s.isLoggedIn) do
        modify fun s => { s with isLoggedIn := true, filesNamed := true }
        loadCoins acoins acoinsInDeposit
        checkWalletBalance env
        modify fun s => { s with startupDeferred := false }

/-- `LoginProtocol.stringReceived`; the reply ends in a key and a text for the user. -/
def loginStringReceived (env : Environment) (j : Nat) (data : Bytes)
    (acoins acoinsInDeposit : Option Bytes) : Py Unit := do
  setFactory j .setDone
  rescue
    (do
      let (version, data) ← attempt (Basic.readByte data)
      if version = 1 then do
        let (returnCode, data) ← attempt (Basic.readByte data)
        if returnCode = 1 then do
          let ((balance, interval, expiresCurrent, expiresNext, _, _, _), blob) ← attempt
            (Basic.readMessage [.I, .I, .I, .I, .s 4, .I] data)
          onNewInfo env balance interval expiresCurrent expiresNext
          onLoginSuccess env (blob.take AUTH_BLOB_SIZE) acoins acoinsInDeposit
        else
          throw (.exception "BadLoginPasswordError")
      else
        throw (.exception ("unknown protocol: " ++ toString version)))
    onLoginFailure

/-- `struct.unpack` of `number` strings of the key's length. -/
def splitSignatures : Nat → Bytes → PyExcept (List Bytes)
  | 0, coins => if coins = [] then .ok [] else .error .structError
  | number + 1, coins =>
    if coins.length < Globals.ACOIN_KEY_BYTES then .error .structError
    else do
      let sigs ← splitSignatures number (coins.drop Globals.ACOIN_KEY_BYTES)
      return coins.take Globals.ACOIN_KEY_BYTES :: sigs

/-- The `while` loop over the factory's requests, each of which is popped first. -/
def parseResponses (env : Environment) (j value number : Nat) :
    List AcoinRequest → List Bytes → Py Unit
  | [], _ => return ()
  | request :: requests, sigs => do
    setFactory j (.setMessage (.request value number requests))
    match sigs with
    | [] => throw .indexError
    | sig :: sigs => do
      let bankKey ← attempt (getAcoinKey env request.value)
      let coin ← attempt (parseAcoinResponse bankKey sig request false)
      match coin with
      | some coin => addAcoin coin
      | none => pure ()
      parseResponses env j value number requests sigs

/-- `ACoinRequestProtocol.stringReceived`. -/
def requestStringReceived (env : Environment) (j value number : Nat) (requests : List AcoinRequest)
    (encryptedMsg : Bytes) : Py Unit := do
  let blob ← decryptMessage env encryptedMsg
  let (responseCode, blob) ← attempt (Basic.readByte blob)
  if responseCode = 0 then do
    let ((newBalance, count, _), coins) ← attempt (Basic.readMessage [.I, .I] blob)
    onNewBalanceFromBank env newBalance
    let sigs ← attempt (splitSignatures count coins)
    output (.signatures sigs)
    parseResponses env j value number requests sigs
  else do
    let ((newBalance, _), _) ← attempt (Basic.readMessage [.I] blob)
    onNewBalanceFromBank env newBalance

/-- `ACoinDepositProtocol.stringReceived`. Closing the circuit that a bad coin came from
is left out. -/
def depositStringReceived (env : Environment) (j : Nat) (coins : List ACoin)
    (finishedDeferred : Bool) (data : Bytes) : Py Unit := do
  setFactory j (.setMessage (.deposit coins finishedDeferred true))
  let data ← decryptMessage env data
  let ((newBalance, interval, expiresCurrent, expiresNext, _), returnSlip) ← attempt
    (Basic.readMessage [.I, .I, .I, .I] data)
  onNewInfo env newBalance interval expiresCurrent expiresNext
  if returnSlip.length ≠ coins.length then
    throw .structError
  else
    modify fun s => { s with
      history := s.history ++ List.zipWith Output.status coins returnSlip }

/-- The request type of `make_bank_prefix`. -/
def requestType : Message → Nat
  | .request _ _ _ => 1
  | .deposit _ _ _ => 2

/-- What a message carries after its prefix. -/
def messageBody : Message → PyExcept Bytes
  | .request value number requests => do
    let sizes ← Basic.structPack [.H, .I] (number, value, ())
    return sizes ++ requests.flatMap fun request => Fmt.packStr Globals.ACOIN_KEY_BYTES request.msg
  | .deposit coins _ _ => do
    let size ← Basic.structPack [.H] (coins.length, ())
    let body ← writeCoins coins
    return size ++ body

/-- `connectionMade` of the request and deposit protocols. -/
def connectionMade (m : Message) : Py Unit := do
  let head ← makeBankPrefix PROTOCOL_VERSION (requestType m)
  let body ← attempt (messageBody m)
  sendEncrypted (head ++ body)

/-- `ACoinDepositFactory.on_done`; the deferred belongs to `stop`, and what its callbacks
raise ends in it. -/
def onDone (coins : List ACoin) (finishedDeferred gotResponse : Bool) : Py Unit := do
  modify fun s => { s with acoinDepositInProgress := false }
  if gotResponse then do
    modify fun s => { s with
      depositingACoins := coins.foldl
        (fun depositing coin => depositing.eraseP fun c => c.key = coin.key) s.depositingACoins }
    when finishedDeferred (rescue shutdownSuccess (rescue shutdownFailure (return ())))
  else
    when finishedDeferred (rescue shutdownFailure (return ()))

/-- `clientConnectionFailed` and `clientConnectionLost` of the request and deposit factories. -/
def messageDone (m : Message) : Py Unit := do
  onBankMessageDone
  match m with
  | .request _ _ _ => modify fun s => { s with acoinRequestInProgress := false }
  | .deposit coins finishedDeferred gotResponse => onDone coins finishedDeferred gotResponse

/-- The end of a login connection, with `LoginProtocol.connectionLost` when it was made. -/
def loginDone (made done : Bool) : Py Unit := do
  when (made ∧ !done) onLoginFailure
  onBankMessageDone
  when (!made ∨ !done) onLoginFailure

def start : Py Unit := do
  let s ← get
  when (!s.isLoggedIn) (modify fun s => { s with startupDeferred := true })

def login : Py Unit := do
  let s ← get
  when (!s.loginInProgress) do
    modify fun s => { s with
      loginInProgress := true
      connections := s.connections ++ [{ factory := .login false, made := false }] }

/-! ### Runs -/

/-- The calls made by the rest of the program and by its timers, and what the reactor
reports about the `j`-th open connection. A login reply is read together with the
contents of the two coin files. -/
inductive Action where
  | start
  | login
  | requestCoins (value number : Nat)
  | depositAcoins (coins : List ACoin)
  | addAcoin (coin : ACoin)
  | onEarnedCoin (coin : ACoin)
  | getAcoins (value : Int)
  | updateCoins
  | checkNextAcoins
  | onUpdate
  | onNewInfo (balance interval expiresCurrent expiresNext : UInt32)
  | stop
  | shutdownTimeout
  | connectionMade (j : Nat)
  | stringReceived (j : Nat) (data : Bytes) (acoins acoinsInDeposit : Option Bytes)
  | connectionFailed (j : Nat)
  | connectionLost (j : Nat)

/-- `get_acoins` as a spender calls it. -/
def spendAcoins (env : Environment) (value : Int) : Py Unit := do
  let coins ← getAcoins env value true
  modify fun s => { s with history := s.history ++ coins.map Output.returned }

def factoryStringReceived (env : Environment) (j : Nat) (data : Bytes)
    (acoins acoinsInDeposit : Option Bytes) : Factory → Py Unit
  | .login _ => loginStringReceived env j data acoins acoinsInDeposit
  | .message (.request value number requests) => requestStringReceived env j value number requests data
  | .message (.deposit coins finishedDeferred _) => depositStringReceived env j coins finishedDeferred data

def factoryConnectionMade : Factory → Py Unit
  | .login _ => return ()
  | .message m => connectionMade m

def factoryDone (made : Bool) : Factory → Py Unit
  | .login done => loginDone made done
  | .message m => messageDone m

/-- The connection that an event is about, when it is in the phase the event belongs to. -/
def connectionIn (s : BankConnection) (j : Nat) (made : Bool) : Option Factory :=
  match s.connections[j]? with
  | some connection => if connection.made = made then some connection.factory else none
  | none => none

/-- The end of a connection, as the reactor reports it to the factory. -/
def finishConnection (j : Nat) (made : Bool) (f : Factory) : Py Unit := do
  modify fun s => { s with connections := s.connections.eraseIdx j }
  factoryDone made f

def establish (j : Nat) (f : Factory) : Py Unit := do
  modify fun s => { s with connections := s.connections.modify j fun c => { c with made := true } }
  factoryConnectionMade f

/-- Exceptions that leave a call are logged by its caller or by the reactor. -/
def step (env : Environment) (s : BankConnection) : Action → Option BankConnection
  | .start => some (finish start s)
  | .login => some (finish login s)
  | .requestCoins value number => some (finish (requestCoins env value number) s)
  | .depositAcoins coins => some (finish (depositAcoins coins) s)
  | .addAcoin coin => some (finish (addAcoin coin) s)
  | .onEarnedCoin coin => some (finish (onEarnedCoin env coin) s)
  | .getAcoins value => some (finish (spendAcoins env value) s)
  | .updateCoins => some (finish (updateCoins env) s)
  | .checkNextAcoins => some (finish (checkNextAcoins env) s)
  | .onUpdate => some (finish (onUpdate env) s)
  | .onNewInfo balance interval expiresCurrent expiresNext => some (finish
      (onNewInfo env balance.toNat interval.toNat expiresCurrent.toNat expiresNext.toNat) s)
  | .stop => some (finish (stop env) s)
  | .shutdownTimeout => if s.shutdownDeferred then some (finish shutdownDone s) else none
  | .connectionMade j => (s.connectionIn j false).map fun f => finish (establish j f) s
  | .stringReceived j data acoins acoinsInDeposit => (s.connectionIn j true).map fun f =>
      finish (factoryStringReceived env j data acoins acoinsInDeposit f) s
  | .connectionFailed j => (s.connectionIn j false).map fun f => finish (finishConnection j false f) s
  | .connectionLost j => (s.connectionIn j true).map fun f => finish (finishConnection j true f) s

end BankConnection

/-- Raw RSA, no blinding, encryption that puts a zero byte before the message, and a clock
that counts how often it is read. -/
def exampleEnvironment : Environment where
  bankKey := .example
  bankKey_fits := PublicKey.example_fits
  decrypt _ msg :=
    match msg with
    | 0 :: msg => some msg
    | _ => none
  time n := n
  random _ := 0
  draw := .counting
  iterate _ coins := coins
  iterate_perm _ _ := .refl _

/-- A successful login reply with the given balance and interval; the interval has expired. -/
def loginReply (balance interval : Nat) : Bytes :=
  [1, 1] ++ packBE 4 balance ++ packBE 4 interval ++ List.replicate 96 0

/-- Logging in with nothing in the coin files. -/
def loggingIn (balance interval : Nat) : List BankConnection.Action :=
  [.start, .login, .connectionMade 0, .stringReceived 0 (loginReply balance interval) none none]

end BitBlinder.Client
