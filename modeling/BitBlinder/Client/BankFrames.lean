import BitBlinder.Runs
import BitBlinder.Client.BankConnection

/-!
# What calls of the bank connection leave alone

Rules for a preorder `R` on the states of a bank connection. A quiet `R`
ignores the bookkeeping and the sending of messages; a draining one is
moreover kept when coins leave the wallet, and a compatible one by what adds
coins and changes balance and interval; a blind one does not look at the coins
at all, and one on the wallet looks at nothing but the coins held and the
interval. The rules derive what such an `R` needs of every call, from the few
statements that the calls are built from.
-/

namespace BitBlinder.Client

set_option autoImplicit false

open Struct Effects

/-- A message as its factory is made: nothing has been answered. -/
def Message.Unanswered : Message → Prop
  | .request _ _ _ => True
  | .deposit _ _ gotResponse => gotResponse = false

/-- The outputs that only report: message and file contents, balances and intervals. -/
def Output.isReport : Output → Bool
  | .packed _ => false
  | .returned _ => false
  | .status _ _ => false
  | _ => true

namespace BankConnection

theorem connectionIn_eq_some {s : BankConnection} {j : Nat} {made : Bool} {f : Factory}
    (h : s.connectionIn j made = some f) : s.connections[j]? = some { factory := f, made } := by
  unfold connectionIn at h
  cases hj : s.connections[j]? with
  | none => simp [hj] at h
  | some c =>
    simp only [hj, Option.ite_none_right_eq_some, Option.some.injEq] at h
    obtain ⟨hmade, hfactory⟩ := h
    rw [← hmade, ← hfactory]

/-- The part of the state that is not bookkeeping. -/
structure Core where
  acoins : Wallet
  depositing : List ACoin
  interval : Int
  balance : Nat
  queue : List Message
  inProgress : Bool
  num : Nat
  connections : List Connection
  history : List Output

def core (s : BankConnection) : Core where
  acoins := s.ACoins
  depositing := s.depositingACoins
  interval := s.currentACoinInterval
  balance := s.lastBankBalance
  queue := s.messageQueue
  inProgress := s.messageInProgress
  num := s.messageNum
  connections := s.connections
  history := s.history

structure Quiet (R : BankConnection → BankConnection → Prop) : Prop where
  core : ∀ {s t}, t.core = s.core → R s t
  report : ∀ {o}, o.isReport = true → Moves R (output o)
  send : ∀ {m}, m.Unanswered → Moves R (sendMessage m)

structure Draining (R : BankConnection → BankConnection → Prop) : Prop extends Quiet R where
  drop : ∀ (acoins : Wallet) depositing {s}, (∀ c, acoins.Holds c → s.ACoins.Holds c) →
    R s { s with ACoins := acoins, depositingACoins := depositing }
  clear : ∀ s, R s { s with messageQueue := [] }
  returned : ∀ (coins : List ACoin) s, R s { s with history := s.history ++ coins.map Output.returned }

structure Compatible (R : BankConnection → BankConnection → Prop) : Prop extends Quiet R where
  balance : ∀ balance s, R s { s with lastBankBalance := balance }
  add : ∀ coin, Moves R (addAcoin coin)
  deposit : ∀ coins, Moves R (depositAcoins coins)
  append : ∀ coin, Moves R (appendDepositing coin)
  learn : ∀ curTime random₁ random₂ expiresCurrent expiresNext {interval : Nat} {s : BankConnection},
    interval < 2 ^ 32 → s.currentACoinInterval < interval →
      R s (learnInterval curTime random₁ random₂ interval expiresCurrent expiresNext s)
  setDone : ∀ j, Moves R (setFactory j .setDone)
  setRequest : ∀ j value number requests,
    Moves R (setFactory j (.setMessage (.request value number requests)))

structure Blind (R : BankConnection → BankConnection → Prop) : Prop extends Compatible R where
  coins : ∀ acoins depositing s, R s { s with ACoins := acoins, depositingACoins := depositing }
  clear : ∀ s, R s { s with messageQueue := [] }
  returned : ∀ (coins : List ACoin) s, R s { s with history := s.history ++ coins.map Output.returned }
  statuses : ∀ coins (returnSlip : Bytes) s,
    R s { s with history := s.history ++ List.zipWith Output.status coins returnSlip }
  setResponse : ∀ j coins finishedDeferred,
    Moves R (setFactory j (.setMessage (.deposit coins finishedDeferred true)))

variable {R : BankConnection → BankConnection → Prop} [IsPreorder BankConnection R]

theorem moves_readCoins {addFunc : ACoin → Py Unit} (hadd : ∀ coin, Moves R (addFunc coin)) (fuel : Nat)
    (data : Bytes) : Moves R (readCoins addFunc fuel data) := by
  induction fuel generalizing data with
  | zero => exact .pure _
  | succ fuel ih =>
    refine .bind .get fun s => .when fun _ => .bind (.attempt _) fun p => ?_
    exact .bind (.when fun _ => hadd p.1) fun _ => ih p.2

theorem moves_readFile {addFunc : ACoin → Py Unit} (hadd : ∀ coin, Moves R (addFunc coin))
    (file : Option Bytes) : Moves R (readFile addFunc file) := by
  cases file with
  | none => exact .pure _
  | some data => exact moves_readCoins hadd _ data

theorem moves_decryptMessage (env : Environment) (msg : Bytes) : Moves R (decryptMessage env msg) := by
  refine .bind .get fun s => .ite (fun _ => .throw _) fun _ => ?_
  split
  · exact .throw _
  · split
    · exact .throw _
    · exact .pure _

namespace Quiet
variable (hR : Quiet R) (env : Environment)
include hR

theorem readClock : Moves R (readClock env) :=
  .bind .get fun _ => .bind (.modify fun _ => hR.core rfl)
    fun _ => .pure _

theorem readRandom : Moves R (readRandom env) :=
  .bind .get fun _ => .bind (.modify fun _ => hR.core rfl)
    fun _ => .pure _

theorem nextDraw : Moves R (nextDraw env) :=
  .bind .get fun _ => .bind (.modify fun _ => hR.core rfl)
    fun _ => .pure _

theorem nextOrder : Moves R (nextOrder env) :=
  .bind .get fun _ => .bind (.modify fun _ => hR.core rfl)
    fun _ => .pure _

theorem makeRequests (interval : Int) (value k : Nat) : Moves R (makeRequests env interval value k) := by
  induction k with
  | zero => exact .pure _
  | succ k ih =>
    refine .bind (.attempt _) fun bankKey => .bind (hR.nextDraw env) fun draw => .bind (.attempt _) fun request => ?_
    exact .bind ih fun requests => .pure _

theorem requestCoins (value number : Nat) : Moves R (requestCoins env value number) := by
  refine .bind .get fun s => .when fun _ => ?_
  refine .bind (.modify fun _ => hR.core rfl) fun _ => ?_
  exact .bind (hR.makeRequests env _ _ _) fun requests => hR.send trivial

theorem checkWalletBalance : Moves R (checkWalletBalance env) :=
  .bind .get fun _ => .when fun _ => hR.requestCoins env _ _

theorem checkNextAcoins : Moves R (checkNextAcoins env) :=
  .bind .get fun _ => .when fun _ => hR.requestCoins env _ _

theorem saveCoins : Moves R saveCoins := by
  refine .bind .get fun s => .when fun _ => .rescue ?_ (.pure _)
  refine .bind (.when fun _ => ?_) fun _ => ?_
  · refine .bind (.attempt _) fun data => .bind (hR.report rfl) fun _ => ?_
    exact .bind (.attempt _) fun data => hR.report rfl
  · exact .modify fun _ => hR.core rfl

theorem start : Moves R start :=
  .bind .get fun _ => .when fun _ => .modify fun _ =>
    hR.core rfl

theorem onLoginFailure : Moves R onLoginFailure :=
  .bind .get fun _ => .when fun _ => .modify fun _ =>
    hR.core rfl

theorem sendEncrypted (msg : Bytes) : Moves R (sendEncrypted msg) := by
  refine .bind .get fun s => .ite (fun _ => .throw _) fun _ => ?_
  split
  · exact .throw _
  · exact hR.report rfl

omit [IsPreorder BankConnection R] in
theorem shutdownDone : Moves R shutdownDone :=
  .modify fun _ => hR.core rfl

theorem shutdownSuccess : Moves R shutdownSuccess := by
  refine .bind (.modify fun _ => hR.core rfl) fun _ => ?_
  refine .bind hR.saveCoins fun _ => .bind .get fun s => ?_
  exact .ite (fun _ => hR.shutdownDone) fun _ => .throw _

end Quiet

namespace Draining
variable (hR : Draining R) (env : Environment)
include hR

theorem removeCoins (coins : List ACoin) : Moves R (removeCoins coins) := by
  induction coins with
  | nil => exact .pure _
  | cons coin coins ih =>
    refine .bind (.bind .get fun s => .ite (fun _ => ?_) fun _ => .pure _) fun _ => ih
    refine .bind (.modify fun s => ?_) fun _ => .pure _
    have hremove : R s { s with ACoins := s.ACoins.remove coin, depositingACoins := s.depositingACoins } :=
      hR.drop _ _ fun c hc => (Wallet.holds_remove.mp hc).1
    refine trans_of R hremove (hR.core ?_)
    rfl

theorem getAcoins (value : Int) (countAsSpent : Bool) : Moves R (getAcoins env value countAsSpent) := by
  refine .bind (hR.readClock env) fun curTime => .bind (hR.nextOrder env) fun order => ?_
  refine .bind .get fun s => .bind (.attempt _) fun coins => .ite (fun _ => .pure _) fun _ => ?_
  refine .bind (hR.removeCoins coins) fun _ => .bind (hR.checkWalletBalance env) fun _ => ?_
  exact .bind (.when fun _ => .modify fun _ => hR.core rfl) fun _ => .pure _

theorem spendAcoins (value : Int) : Moves R (spendAcoins env value) :=
  .bind (hR.getAcoins env value true) fun coins => .modify (hR.returned coins)

theorem takeStale (curTime : Rat) (times : IntervalTimes) (coins : List ACoin) :
    Moves R (takeStale env curTime times coins) := by
  refine .bind (hR.nextOrder env) fun order => .bind .get fun s => .ite (fun _ => ?_) fun _ => .pure _
  exact .bind (hR.removeCoins _) fun _ => .bind (hR.checkWalletBalance env) fun _ => .pure _

theorem takeSurplus (coins : List ACoin) : Moves R (takeSurplus env coins) := by
  refine .bind .get fun s => .ite (fun _ => ?_) fun _ => .pure _
  exact .bind (hR.getAcoins env _ _) fun _ => .pure _

theorem deposit (coins : List ACoin) : Moves R (depositAcoins coins) :=
  .bind .get fun _ => .when fun _ => .bind (.modify fun _ => hR.drop _ _ fun _ hc => hc) fun _ => hR.send rfl

theorem updateCoins : Moves R (updateCoins env) := by
  refine .bind (.rescue ?_ (.pure _)) fun _ => hR.saveCoins
  refine .bind (hR.checkWalletBalance env) fun _ => .bind .get fun s => .when fun _ => ?_
  refine .bind (hR.readClock env) fun curTime => .bind .get fun t => ?_
  split
  · exact .throw _
  · refine .bind (hR.takeStale env _ _ _) fun coins => .bind (hR.takeSurplus env coins) fun coins' => ?_
    exact .when fun _ => .bind (.modify fun _ => hR.core rfl) fun _ => hR.deposit _

theorem stop : Moves R (stop env) := by
  refine .bind .get fun s => .when fun _ => .bind (.modify hR.clear) fun _ => .ite (fun _ => ?_) fun _ => ?_
  · exact .when fun _ => .modify fun _ => hR.core rfl
  · refine .bind (hR.nextOrder env) fun order => .bind (.modify fun t => ?_) fun _ => ?_
    · refine trans_of R (hR.drop .empty (t.depositingACoins ++ order s.ACoins.coins) fun c hc => ?_) (hR.core ?_)
      · exact absurd hc (Wallet.holds_empty c)
      · rfl
    · exact .bind hR.saveCoins fun _ => .bind .get fun t => hR.send rfl

theorem onDone (coins : List ACoin) (finishedDeferred gotResponse : Bool) :
    Moves R (onDone coins finishedDeferred gotResponse) := by
  refine .bind (.modify fun _ => hR.core rfl) fun _ => .ite (fun _ => ?_) fun _ => ?_
  · refine .bind (.modify fun _ => hR.drop _ _ fun _ hc => hc) fun _ => .when fun _ => ?_
    exact .rescue hR.shutdownSuccess (.rescue (.throw _) (.pure _))
  · exact .when fun _ => .rescue (.throw _) (.pure _)

end Draining

namespace Compatible
variable (hR : Compatible R) (env : Environment)
include hR

theorem onNewBalanceFromBank (newBalance : Nat) : Moves R (onNewBalanceFromBank env newBalance) := by
  refine .bind (hR.report rfl) fun _ => .bind (hR.readClock env) fun curTime => ?_
  refine .bind (.modify fun s => ?_) fun _ => hR.checkWalletBalance env
  refine trans_of R (hR.balance newBalance s) (hR.core ?_)
  rfl

theorem onNewInfo (balance : Nat) {interval : Nat} (hinterval : interval < 2 ^ 32)
    (expiresCurrent expiresNext : Nat) :
    Moves R (onNewInfo env balance interval expiresCurrent expiresNext) := by
  refine .bind (hR.report rfl) fun _ => ?_
  -- The test is made on the state that `learnInterval` changes, so the two are taken together.
  intro s
  rw [outcome_bind, outcome_get, outcome_bind, outcome_when]
  have hbalance : ∀ t, R s t → Outcome (BankConnection.onNewBalanceFromBank env balance) t
      (fun _ => R s) (fun _ => R s) := by
    intro t hst
    exact (hR.onNewBalanceFromBank env balance t).mono (fun _ _ htu => trans_of R hst htu)
      fun _ _ htu => trans_of R hst htu
  split
  · rename_i hlt
    simp only [BankConnection.readClock, BankConnection.readRandom, outcome_bind, outcome_get,
      outcome_modify, outcome_pure]
    apply hbalance
    have hread : R s { s with clockReads := s.clockReads + 1, randomReads := s.randomReads + 1 + 1 } :=
      hR.core rfl
    exact trans_of R hread (hR.learn _ _ _ _ _ hinterval hlt)
  · exact hbalance s (refl_of R s)

theorem onEarnedCoin (coin : ACoin) : Moves R (onEarnedCoin env coin) := by
  refine .bind .get fun s => .bind (.attempt _) fun bankKey => .bind (.attempt _) fun _ => ?_
  exact .bind (hR.add coin) fun _ => .modify fun _ => hR.core rfl

theorem onUpdate : Moves R (onUpdate env) := by
  refine .bind (hR.readClock env) fun curTime => .bind .get fun s => .when fun _ => ?_
  refine .bind (.modify fun _ => hR.core rfl) fun _ => ?_
  exact hR.deposit []

theorem loadCoins (acoins acoinsInDeposit : Option Bytes) :
    Moves R (loadCoins acoins acoinsInDeposit) := by
  refine .rescue (.bind .get fun s => ?_) (.pure _)
  refine .bind (.when fun _ => .throw _) fun _ => .bind (moves_readFile hR.add acoins) fun _ => ?_
  refine .bind .get fun t => .bind (.when fun _ => .throw _) fun _ => ?_
  exact moves_readFile hR.append acoinsInDeposit

theorem onLoginSuccess (authBlob : Bytes) (acoins acoinsInDeposit : Option Bytes) :
    Moves R (onLoginSuccess env authBlob acoins acoinsInDeposit) := by
  refine .bind .get fun s => .when fun _ => ?_
  refine .bind (.modify fun _ => hR.core rfl) fun _ => ?_
  refine .ite (fun _ => .throw _) fun _ => ?_
  refine .bind (.modify fun _ => hR.core rfl) fun _ => ?_
  refine .when fun _ => ?_
  refine .bind (.modify fun _ => hR.core rfl) fun _ => ?_
  refine .bind (hR.loadCoins _ _) fun _ => .bind (hR.checkWalletBalance env) fun _ => ?_
  exact .modify fun _ => hR.core rfl

theorem loginStringReceived (j : Nat) (data : Bytes) (acoins acoinsInDeposit : Option Bytes) :
    Moves R (loginStringReceived env j data acoins acoinsInDeposit) := by
  refine .bind (hR.setDone j) fun _ => .rescue ?_ hR.onLoginFailure
  refine .bind (.attempt _) fun p => .ite (fun _ => ?_) fun _ => .throw _
  refine .bind (.attempt _) fun q => .ite (fun _ => ?_) fun _ => .throw _
  refine .bind_attempt fun r hr => ?_
  have hinterval := (Basic.inRange_of_readMessage hr).2.1
  exact .bind (hR.onNewInfo env _ hinterval _ _) fun _ => hR.onLoginSuccess env _ _ _

theorem parseResponses (j value number : Nat) (requests : List AcoinRequest) (sigs : List Bytes) :
    Moves R (parseResponses env j value number requests sigs) := by
  induction requests generalizing sigs with
  | nil => exact .pure _
  | cons request requests ih =>
    refine .bind (hR.setRequest _ _ _ _) fun _ => ?_
    cases sigs with
    | nil => exact .throw _
    | cons sig sigs =>
      refine .bind (.attempt _) fun bankKey => .bind (.attempt _) fun coin => ?_
      cases coin with
      | none => exact ih sigs
      | some coin => exact .bind (hR.add coin) fun _ => ih sigs

theorem requestStringReceived (j value number : Nat) (requests : List AcoinRequest) (data : Bytes) :
    Moves R (requestStringReceived env j value number requests data) := by
  refine .bind (moves_decryptMessage env data) fun blob => .bind (.attempt _) fun p => ?_
  refine .ite (fun _ => ?_) fun _ => ?_
  · refine .bind (.attempt _) fun q => .bind (hR.onNewBalanceFromBank env _) fun _ => ?_
    refine .bind (.attempt _) fun sigs => .bind (hR.report rfl) fun _ => ?_
    exact hR.parseResponses env _ _ _ _ _
  · exact .bind (.attempt _) fun q => hR.onNewBalanceFromBank env _

end Compatible

omit [IsPreorder BankConnection R] in
theorem Blind.draining (hR : Blind R) : Draining R where
  toQuiet := hR.toQuiet
  drop acoins depositing s _ := hR.coins acoins depositing s
  clear := hR.clear
  returned := hR.returned

namespace Blind
variable (hR : Blind R) (env : Environment)
include hR

theorem depositStringReceived (j : Nat) (coins : List ACoin) (finishedDeferred : Bool) (data : Bytes) :
    Moves R (depositStringReceived env j coins finishedDeferred data) := by
  refine .bind (hR.setResponse j coins finishedDeferred) fun _ => ?_
  refine .bind (moves_decryptMessage env data) fun blob => .bind_attempt fun p hp => ?_
  have hinterval := (Basic.inRange_of_readMessage hp).2.1
  refine .bind (hR.onNewInfo env _ hinterval _ _) fun _ => ?_
  exact .ite (fun _ => .throw _) fun _ => .modify (hR.statuses coins p.2)

/-- One event, from what the opening and the ending of connections do to it. -/
theorem step {s t : BankConnection} {a : Action} (hlogin : Moves R BankConnection.login)
    (hmade : ∀ {j f}, s.connectionIn j false = some f → R s (finish (establish j f) s))
    (hfailed : ∀ {j f}, a = .connectionFailed j → s.connectionIn j false = some f →
      R s (finish (finishConnection j false f) s))
    (hlost : ∀ {j f}, a = .connectionLost j → s.connectionIn j true = some f →
      R s (finish (finishConnection j true f) s))
    (h : BankConnection.step env s a = some t) : R s t := by
  cases a with
  | start => cases h; exact hR.start.finish s
  | login => cases h; exact hlogin.finish s
  | requestCoins value number => cases h; exact (hR.requestCoins env value number).finish s
  | depositAcoins coins => cases h; exact (hR.deposit coins).finish s
  | addAcoin coin => cases h; exact (hR.add coin).finish s
  | onEarnedCoin coin => cases h; exact (hR.onEarnedCoin env coin).finish s
  | getAcoins value => cases h; exact (hR.draining.spendAcoins env value).finish s
  | updateCoins => cases h; exact (hR.draining.updateCoins env).finish s
  | checkNextAcoins => cases h; exact (hR.checkNextAcoins env).finish s
  | onUpdate => cases h; exact (hR.onUpdate env).finish s
  | onNewInfo balance interval expiresCurrent expiresNext =>
    cases h
    exact (hR.onNewInfo env _ interval.toNat_lt _ _).finish s
  | stop => cases h; exact (hR.draining.stop env).finish s
  | shutdownTimeout =>
    simp only [BankConnection.step, Option.ite_none_right_eq_some] at h
    obtain ⟨-, h⟩ := h
    cases h
    exact hR.shutdownDone.finish s
  | connectionMade j =>
    obtain ⟨f, hf, rfl⟩ := Option.map_eq_some_iff.mp h
    exact hmade hf
  | stringReceived j data acoins acoinsInDeposit =>
    obtain ⟨f, -, rfl⟩ := Option.map_eq_some_iff.mp h
    cases f with
    | login done => exact (hR.loginStringReceived env j data _ _).finish s
    | message m =>
      cases m with
      | request value number requests => exact (hR.requestStringReceived env j _ _ _ _).finish s
      | deposit coins finishedDeferred gotResponse =>
        exact (hR.depositStringReceived env j _ _ _).finish s
  | connectionFailed j =>
    obtain ⟨f, hf, rfl⟩ := Option.map_eq_some_iff.mp h
    exact hfailed rfl hf
  | connectionLost j =>
    obtain ⟨f, hf, rfl⟩ := Option.map_eq_some_iff.mp h
    exact hlost rfl hf

end Blind

/-! ### Relations on the wallet and the interval -/

/-- Nothing matters but the interval and that no coin was added. -/
def OnWallet (R : BankConnection → BankConnection → Prop) : Prop :=
  ∀ {s t}, t.currentACoinInterval = s.currentACoinInterval →
    (∀ c, t.ACoins.Holds c → s.ACoins.Holds c) → R s t

namespace OnWallet
variable (hR : OnWallet R)
include hR

omit [IsPreorder BankConnection R] in
theorem same {s t : BankConnection} (hinterval : t.currentACoinInterval = s.currentACoinInterval)
    (hacoins : t.ACoins = s.ACoins) : R s t :=
  hR hinterval fun _ hc => hacoins ▸ hc

theorem send (m : Message) : Moves R (sendMessage m) := by
  refine .bind .get fun s => .ite (fun _ => ?_) fun _ => .modify fun _ => hR.same rfl rfl
  exact .bind (.modify fun _ => hR.same rfl rfl) fun _ => .modify fun _ => hR.same rfl rfl

theorem draining : Draining R where
  core h := hR.same (congrArg Core.interval h) (congrArg Core.acoins h)
  report _ := .modify fun _ => hR.same rfl rfl
  send _ := hR.send _
  drop _ _ _ h := hR rfl h
  clear _ := hR.same rfl rfl
  returned _ _ := hR.same rfl rfl

omit [IsPreorder BankConnection R] in
theorem setFactory (j : Nat) (f : Factory → Factory) : Moves R (setFactory j f) :=
  .modify fun _ => hR.same rfl rfl

theorem onBankMessageDone : Moves R onBankMessageDone := by
  refine .bind .get fun s => ?_
  split
  · exact .modify fun _ => hR.same rfl rfl
  · exact .bind (.modify fun _ => hR.same rfl rfl) fun _ => .modify fun _ => hR.same rfl rfl

theorem login : Moves R login :=
  .bind .get fun _ => .when fun _ => .modify fun _ => hR.same rfl rfl

theorem establish (j : Nat) (f : Factory) : Moves R (establish j f) := by
  refine .bind (.modify fun _ => hR.same rfl rfl) fun _ => ?_
  cases f with
  | login done => exact .pure _
  | message m =>
    refine .bind (.bind .get fun s => ?_) fun head => ?_
    · exact .bind (.attempt _) fun _ => .bind (.modify fun _ => hR.same rfl rfl) fun _ => .pure _
    · exact .bind (.attempt _) fun body => hR.draining.sendEncrypted _

theorem finishConnection (j : Nat) (made : Bool) (f : Factory) : Moves R (finishConnection j made f) := by
  refine .bind (.modify fun _ => hR.same rfl rfl) fun _ => ?_
  cases f with
  | login done =>
    refine .bind (.when fun _ => hR.draining.onLoginFailure) fun _ => ?_
    exact .bind hR.onBankMessageDone fun _ => .when fun _ => hR.draining.onLoginFailure
  | message m =>
    refine .bind hR.onBankMessageDone fun _ => ?_
    cases m with
    | request value number requests => exact .modify fun _ => hR.same rfl rfl
    | deposit coins finishedDeferred gotResponse => exact hR.draining.onDone _ _ _

end OnWallet

/-! ### Requests for more coins -/

/-- The interval fits the field that it is packed into. -/
def Bounded (s : BankConnection) : Prop :=
  0 ≤ s.currentACoinInterval ∧ s.currentACoinInterval < 2 ^ 32

def KeepsBounded (s t : BankConnection) : Prop := s.Bounded → t.Bounded

instance : IsPreorder BankConnection KeepsBounded where
  refl _ h := h
  trans _ _ _ hst htu h := htu (hst h)

theorem onWallet_keepsBounded : OnWallet KeepsBounded := by
  intro s t hinterval _ hs
  unfold Bounded at hs ⊢
  rwa [hinterval]

theorem blind_keepsBounded : Blind KeepsBounded where
  toQuiet := onWallet_keepsBounded.draining.toQuiet
  balance _ _ h := h
  add _ := .bind .get fun _ => .ite (fun _ => .throw _) fun _ => .modify fun _ h => h
  deposit := onWallet_keepsBounded.draining.deposit
  append _ := .modify fun _ h => h
  learn _ _ _ _ _ interval _ hlt _ _ := by
    have hlt : (interval : Int) < 2 ^ 32 := by exact_mod_cast hlt
    exact ⟨Int.natCast_nonneg interval, hlt⟩
  setDone _ := onWallet_keepsBounded.setFactory _ _
  setRequest _ _ _ _ := onWallet_keepsBounded.setFactory _ _
  coins _ _ _ h := h
  clear _ h := h
  returned _ _ h := h
  statuses _ _ _ h := h
  setResponse _ _ _ := onWallet_keepsBounded.setFactory _ _

theorem step_bounded {env : Environment} {s t : BankConnection} {a : Action} (hs : s.Bounded)
    (hstep : step env s a = some t) : t.Bounded := by
  have hR : OnWallet KeepsBounded := onWallet_keepsBounded
  refine blind_keepsBounded.step env hR.login ?_ ?_ ?_ hstep hs
  · exact fun _ => (hR.establish _ _).finish s
  · exact fun _ _ => (hR.finishConnection _ false _).finish s
  · exact fun _ _ => (hR.finishConnection _ true _).finish s

theorem run_bounded {env : Environment} {ok : BankConnection → Action → Prop} {as : List Action}
    {s : BankConnection} (h : Run (step env) ok new as s) : s.Bounded :=
  h.invariant (fun hs _ hstep => step_bounded hs hstep) ⟨Int.le_refl 0, by decide⟩

/-- The states agree on what the deposit code reads besides the wallet. -/
structure SameSetting (s t : BankConnection) : Prop where
  depositing : t.depositingACoins = s.depositingACoins
  interval : t.currentACoinInterval = s.currentACoinInterval
  times : t.intervalTimes = s.intervalTimes
  stopping : t.shutdownDeferred = s.shutdownDeferred

/-- Moreover the wallet, the balance and the clock have not moved, and connections were only
opened. -/
structure SameCoins (s t : BankConnection) : Prop extends SameSetting s t where
  acoins : t.ACoins = s.ACoins
  balance : t.lastBankBalance = s.lastBankBalance
  history : t.history = s.history
  connections : s.connections <+: t.connections
  depositInProgress : t.acoinDepositInProgress = s.acoinDepositInProgress
  clockReads : t.clockReads = s.clockReads

theorem SameSetting.trans {s t u : BankConnection} (h : SameSetting s t) (h' : SameSetting t u) :
    SameSetting s u :=
  ⟨h'.depositing.trans h.depositing, h'.interval.trans h.interval, h'.times.trans h.times,
    h'.stopping.trans h.stopping⟩

theorem sameCoins_of {s t : BankConnection} (hcore : t.core = { s.core with
      queue := t.messageQueue, inProgress := t.messageInProgress, num := t.messageNum,
      connections := t.connections })
    (htimes : t.intervalTimes = s.intervalTimes) (hstopping : t.shutdownDeferred = s.shutdownDeferred)
    (hdeposit : t.acoinDepositInProgress = s.acoinDepositInProgress)
    (hclock : t.clockReads = s.clockReads) (hconnections : s.connections <+: t.connections) :
    SameCoins s t where
  depositing := congrArg Core.depositing hcore
  interval := congrArg Core.interval hcore
  times := htimes
  stopping := hstopping
  acoins := congrArg Core.acoins hcore
  balance := congrArg Core.balance hcore
  history := congrArg Core.history hcore
  connections := hconnections
  depositInProgress := hdeposit
  clockReads := hclock

theorem SameCoins.refl (s : BankConnection) : SameCoins s s :=
  sameCoins_of rfl rfl rfl rfl rfl (List.prefix_refl _)

theorem SameCoins.trans {s t u : BankConnection} (h : SameCoins s t) (h' : SameCoins t u) :
    SameCoins s u where
  toSameSetting := h.toSameSetting.trans h'.toSameSetting
  acoins := h'.acoins.trans h.acoins
  balance := h'.balance.trans h.balance
  history := h'.history.trans h.history
  connections := h.connections.trans h'.connections
  depositInProgress := h'.depositInProgress.trans h.depositInProgress
  clockReads := h'.clockReads.trans h.clockReads

theorem makeRequests_spec (env : Environment) {interval : Int} (hpos : 0 ≤ interval)
    (hlt : interval < 2 ^ 32) (k : Nat) (s : BankConnection) :
    Outcome (makeRequests env interval 1 k) s (fun _ t => SameCoins s t) fun _ _ => False := by
  induction k generalizing s with
  | zero => exact .refl s
  | succ k ih =>
    obtain ⟨request, hrequest⟩ := makeAcoinRequest_exists env.bankKey_fits (env.draw s.drawn) hpos hlt 1
    have hkey : getAcoinKey env 1 = .ok env.bankKey := rfl
    simp only [makeRequests, nextDraw, hkey, outcome_bind, outcome_attempt, outcome_get, outcome_modify,
      outcome_pure, hrequest]
    refine (ih _).mono (fun requests t ht => ?_) fun _ _ h => h
    refine SameCoins.trans ?_ ht
    exact sameCoins_of rfl rfl rfl rfl rfl (List.prefix_refl _)

theorem sendMessage_spec (m : Message) (s : BankConnection) :
    Outcome (sendMessage m) s (fun _ t => SameCoins s t) fun _ _ => False := by
  simp only [sendMessage, sendNextMessage, outcome_bind, outcome_get, outcome_ite, outcome_modify]
  split
  · exact sameCoins_of rfl rfl rfl rfl rfl (List.prefix_append _ _)
  · exact sameCoins_of rfl rfl rfl rfl rfl (List.prefix_refl _)

theorem requestCoins_spec (env : Environment) {s : BankConnection} (hs : s.Bounded) (number : Nat) :
    Outcome (requestCoins env 1 number) s (fun _ t => SameCoins s t) fun _ _ => False := by
  simp only [requestCoins, outcome_bind, outcome_get, outcome_when, outcome_modify]
  split
  · refine (makeRequests_spec env hs.1 hs.2 _ _).mono (fun requests t ht => ?_) fun _ _ h => h
    refine (sendMessage_spec _ t).mono (fun _ u hu => ?_) fun _ _ h => h
    refine SameCoins.trans ?_ (ht.trans hu)
    exact sameCoins_of rfl rfl rfl rfl rfl (List.prefix_refl _)
  · exact .refl s

/-- The balance check raises nothing, and does nothing but send a request. -/
theorem checkWalletBalance_same (env : Environment) {s : BankConnection} (hs : s.Bounded) :
    Outcome (checkWalletBalance env) s (fun _ t => SameCoins s t) fun _ _ => False := by
  simp only [checkWalletBalance, outcome_bind, outcome_get, outcome_when]
  split
  · exact requestCoins_spec env hs _
  · exact .refl s

/-! ### Reading what the bank sends -/

/-- What `decrypt_message` makes of a string; `none` when it raises. -/
def opened (env : Environment) (s : BankConnection) (data : Bytes) : Option Bytes :=
  if s.isLoggedIn then s.secretKey.bind fun key => env.decrypt key data else none

theorem decryptMessage_some {env : Environment} {s : BankConnection} {data msg : Bytes}
    {Q : Bytes → BankConnection → Prop} {E : PyError → BankConnection → Prop}
    (h : s.opened env data = some msg) (hQ : Q msg s) : Outcome (decryptMessage env data) s Q E := by
  unfold opened at h
  split at h
  · rename_i hlogged
    obtain ⟨key, hkey, hdecrypt⟩ := Option.bind_eq_some_iff.mp h
    simpa [decryptMessage, hlogged, hkey, hdecrypt] using hQ
  · cases h

theorem decryptMessage_none {env : Environment} {s : BankConnection} {data : Bytes}
    {Q : Bytes → BankConnection → Prop} {E : PyError → BankConnection → Prop}
    (h : s.opened env data = none) (hE : ∀ e, E e s) : Outcome (decryptMessage env data) s Q E := by
  unfold opened at h
  split at h
  · rename_i hlogged
    cases hkey : s.secretKey with
    | none => simpa [decryptMessage, hlogged, hkey] using hE _
    | some key =>
      rw [hkey, Option.bind_some] at h
      simpa [decryptMessage, hlogged, hkey, h] using hE _
  · rename_i hlogged
    simpa [decryptMessage, hlogged] using hE _

/-- The balance and an interval were learned, which is recorded as `outputs`. -/
structure Updated (s : BankConnection) (newBalance : Nat) (newInterval : Int) (outputs : List Output)
    (t : BankConnection) : Prop where
  balance : t.lastBankBalance = newBalance
  interval : t.currentACoinInterval = max s.currentACoinInterval newInterval
  acoins : newInterval ≤ s.currentACoinInterval → t.ACoins = s.ACoins
  depositing : t.depositingACoins = s.depositingACoins
  history : t.history = s.history ++ outputs
  connections : s.connections <+: t.connections

theorem onNewBalanceFromBank_spec (env : Environment) {s : BankConnection} (hs : s.Bounded)
    (newBalance : Nat) : Outcome (onNewBalanceFromBank env newBalance) s
      (fun _ => Updated s newBalance s.currentACoinInterval [.newBalance newBalance]) fun _ _ => False := by
  simp only [onNewBalanceFromBank, output, readClock, outcome_bind, outcome_get, outcome_modify,
    outcome_pure]
  refine (checkWalletBalance_same env ?_).mono (fun _ t ht => ?_) fun _ _ h => h
  · exact hs
  · refine ⟨ht.balance, ?_, fun _ => ht.acoins, ht.depositing, ht.history, ht.connections⟩
    rw [max_self]
    exact ht.interval

theorem onNewInfo_spec (env : Environment) {s : BankConnection} (hs : s.Bounded) (balance : Nat)
    {interval : Nat} (hinterval : interval < 2 ^ 32) (expiresCurrent expiresNext : Nat) :
    Outcome (onNewInfo env balance interval expiresCurrent expiresNext) s
      (fun _ => Updated s balance interval
        [.newInfo balance interval expiresCurrent expiresNext, .newBalance balance])
      fun _ _ => False := by
  simp only [onNewInfo, output, readClock, readRandom, outcome_bind, outcome_get, outcome_modify,
    outcome_when, outcome_pure]
  split
  · rename_i hlt
    refine (onNewBalanceFromBank_spec env ?_ balance).mono (fun _ t ht => ?_) fun _ _ h => h
    · refine ⟨Int.natCast_nonneg interval, ?_⟩
      change (interval : Int) < 2 ^ 32
      exact_mod_cast hinterval
    · refine ⟨ht.balance, ?_, fun hle => ?_, ht.depositing, ?_, ht.connections⟩
      · rw [ht.interval, max_self, max_eq_right (Int.le_of_lt hlt)]
        rfl
      · exact absurd hle (Int.not_le.mpr hlt)
      · rw [ht.history]
        exact List.append_assoc _ _ _
  · rename_i hle
    refine (onNewBalanceFromBank_spec env ?_ balance).mono (fun _ t ht => ?_) fun _ _ h => h
    · exact hs
    · have hle := Int.not_lt.mp hle
      refine ⟨ht.balance, ?_, fun _ => ht.acoins (Int.le_refl _), ht.depositing, ?_, ht.connections⟩
      · rw [ht.interval, max_self, max_eq_left hle]
      · rw [ht.history]
        exact List.append_assoc _ _ _

end BankConnection

end BitBlinder.Client
