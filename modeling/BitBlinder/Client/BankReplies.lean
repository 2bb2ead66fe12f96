import BitBlinder.Runs
import BitBlinder.Bank.Accounts
import BitBlinder.Client.BankFrames

/-!
# What the bank answers and what the client reads

The plaintexts that the bank may send in answer to a request or a deposit are
read by the client's protocols, which then lose the connection. A reply is
understood when the client has read exactly what the bank encoded, or when it
is left with the coins, the balance and the interval that it had. Nothing tells
an error text from the two other kinds of reply: the request protocol takes its
first byte for a response code, and the deposit protocol has counted it as a
response before it looks at it.
-/

namespace BitBlinder.Client

set_option autoImplicit false

open Struct Effects

/-- What a reply of the bank encodes. -/
inductive Encoded where
  | minted (balance : Int) (number : Nat) (signatures : Bytes)
  | refused (balance : Int)
  | slip (balance interval curExp nextExp : Int) (returnSlip : Bytes)
  | error

namespace BankConnection

/-- The plaintexts that the bank may send in answer to a message. Between signing and the
`SELECT`, and between verifying and the reply, the accounts and the interval may change. -/
inductive Answers (cfg : Bank.Config) : Message → Bytes → Encoded → Prop where
  | minted {value number : Nat} {requests : List AcoinRequest} {body plaintext : Bytes}
      {r₀ r : Bank.Request} {tup : List Int} {proposedBalance balance : Int}
      (sent : messageBody (.request value number requests) = .ok body)
      (signed : r₀.unpackAndMint cfg body = (r, .ok ()))
      (proposed : r.updateAccount tup = .ok (proposedBalance, balance)) (funds : 0 ≤ proposedBalance)
      (reply : r.sendReply true proposedBalance balance = .ok plaintext) :
      Answers cfg (.request value number requests) plaintext
        (.minted proposedBalance r.number r.signatures)
  | refused {value number : Nat} {requests : List AcoinRequest} {body plaintext : Bytes}
      {r₀ r : Bank.Request} {tup : List Int} {proposedBalance balance : Int}
      (sent : messageBody (.request value number requests) = .ok body)
      (signed : r₀.unpackAndMint cfg body = (r, .ok ()))
      (proposed : r.updateAccount tup = .ok (proposedBalance, balance)) (funds : proposedBalance < 0)
      (reply : r.sendReply false proposedBalance balance = .ok plaintext) :
      Answers cfg (.request value number requests) plaintext (.refused balance)
  | slip {coins : List ACoin} {finishedDeferred gotResponse : Bool} {body returnSlip plaintext : Bytes}
      {srv srv' : Bank.Server} {number total : Nat} {current : Bank.AcoinInterval} {curTime balance : Int}
      {rest : List Int}
      (sent : messageBody (.deposit coins finishedDeferred gotResponse) = .ok body)
      (verified : Bank.unpackAndVerify cfg srv body = (srv', .ok (number, returnSlip, total)))
      (reply : Bank.depositReply number returnSlip current curTime (balance :: rest) = .ok plaintext) :
      Answers cfg (.deposit coins finishedDeferred gotResponse) plaintext
        (.slip balance current.id (Bank.getIntervalTimeDeltas current curTime).1
          (Bank.getIntervalTimeDeltas current curTime).2 returnSlip)
  | error (m : Message) : Answers cfg m Bank.errorText .error

/-- The state that a reply which is not understood must leave alone. -/
structure Holdings where
  lastBankBalance : Nat
  currentACoinInterval : Int
  acoins : Wallet
  depositingACoins : List ACoin

def holdings (s : BankConnection) : Holdings where
  lastBankBalance := s.lastBankBalance
  currentACoinInterval := s.currentACoinInterval
  acoins := s.ACoins
  depositingACoins := s.depositingACoins

/-- From `s` to `t` the client has read what was encoded, and nothing else. -/
def Recovered (s t : BankConnection) : Message → Encoded → Prop
  | _, .minted balance number signatures => ∃ (newBalance : Nat) (sigs : List Bytes),
      (newBalance : Int) = balance ∧
      sigs.length = number ∧ (∀ sig ∈ sigs, sig.length = Globals.ACOIN_KEY_BYTES) ∧
      sigs.flatten = signatures ∧
      t.history = s.history ++ [.newBalance newBalance, .signatures sigs] ∧
      t.lastBankBalance = newBalance ∧ t.currentACoinInterval = s.currentACoinInterval
  | _, .refused balance => ∃ newBalance : Nat, (newBalance : Int) = balance ∧
      t.history = s.history ++ [.newBalance newBalance] ∧
      t.lastBankBalance = newBalance ∧ t.currentACoinInterval = s.currentACoinInterval
  | .deposit coins _ _, .slip balance interval curExp nextExp returnSlip =>
      ∃ newBalance newInterval expiresCurrent expiresNext : Nat, (newBalance : Int) = balance ∧
      (newInterval : Int) = interval ∧ (expiresCurrent : Int) = curExp ∧ (expiresNext : Int) = nextExp ∧
      returnSlip.length = coins.length ∧
      t.history = s.history ++ [.newInfo newBalance newInterval expiresCurrent expiresNext,
        .newBalance newBalance] ++ List.zipWith Output.status coins returnSlip ∧
      t.lastBankBalance = newBalance ∧ t.currentACoinInterval = max s.currentACoinInterval interval
  | .request _ _ _, .slip _ _ _ _ _ => False
  | _, .error => False

/-- Reading the reply and losing the connection. -/
def Understood (env : Environment) (s : BankConnection) (j : Nat) (data : Bytes) (m : Message)
    (encoded : Encoded) : Prop :=
  ∃ t u, step env s (.stringReceived j data none none) = some t ∧
    step env t (.connectionLost j) = some u ∧
    (Recovered s t m encoded ∨ u.holdings = s.holdings)

/-! ### Reading what was encoded -/

theorem splitSignatures_spec (number : Nat) {coins : Bytes}
    (h : coins.length = Globals.ACOIN_KEY_BYTES * number) :
    ∃ sigs, splitSignatures number coins = .ok sigs ∧ sigs.length = number ∧
      (∀ sig ∈ sigs, sig.length = Globals.ACOIN_KEY_BYTES) ∧ sigs.flatten = coins := by
  induction number generalizing coins with
  | zero =>
    rw [Nat.mul_zero, List.length_eq_zero_iff] at h
    subst h
    exact ⟨[], rfl, rfl, by simp, rfl⟩
  | succ number ih =>
    rw [Nat.mul_add, Nat.mul_one] at h
    have hdrop : (coins.drop Globals.ACOIN_KEY_BYTES).length = Globals.ACOIN_KEY_BYTES * number := by
      rw [List.length_drop]
      omega
    obtain ⟨sigs, hsplit, hlength, hsizes, hflatten⟩ := ih hdrop
    refine ⟨coins.take Globals.ACOIN_KEY_BYTES :: sigs, ?_, by simp [hlength], ?_, ?_⟩
    · rw [splitSignatures, if_neg (by omega), hsplit]
      rfl
    · intro sig hsig
      rcases List.mem_cons.mp hsig with rfl | hsig
      · rw [List.length_take]
        omega
      · exact hsizes sig hsig
    · rw [List.flatten_cons, hflatten, List.take_append_drop]

/-- The client reads the balance and the signatures that the bank packed. -/
theorem read_minted {cfg : Bank.Config} {r₀ r : Bank.Request} {body plaintext : Bytes}
    {proposedBalance balance : Int} (signed : r₀.unpackAndMint cfg body = (r, .ok ()))
    (reply : r.sendReply true proposedBalance balance = .ok plaintext) :
    ∃ (newBalance : Nat) (blob : Bytes) (sigs : List Bytes), (newBalance : Int) = proposedBalance ∧
      Basic.readByte plaintext = .ok (0, blob) ∧
      Basic.readMessage [.I, .I] blob = .ok ((newBalance, r.number, ()), r.signatures) ∧
      splitSignatures r.number r.signatures = .ok sigs ∧ sigs.length = r.number ∧
      (∀ sig ∈ sigs, sig.length = Globals.ACOIN_KEY_BYTES) ∧ sigs.flatten = r.signatures := by
  obtain ⟨newBalance, hbalance, reply⟩ := PyExcept.bind_eq_ok reply
  obtain ⟨head, hhead, reply⟩ := PyExcept.bind_eq_ok reply
  cases reply
  obtain ⟨⟨hcode, hnew, hnumber, -⟩, rfl⟩ := Basic.structPack_eq_ok_iff.mp hhead
  have hlength := (Bank.Request.unpackAndMint_minted signed).signatures_length
  rw [Bank.Request.unpackAndMint_bill signed] at hlength
  obtain ⟨sigs, hsigs⟩ := splitSignatures_spec r.number hlength
  have hfits : Fits [.I, .I] (newBalance, r.number, ()) := ⟨hnew, hnumber, trivial⟩
  refine ⟨newBalance, packed [.I, .I] (newBalance, r.number, ()) ++ r.signatures, sigs,
    Basic.toUnsigned_of_ok hbalance, ?_, ?_, hsigs⟩
  · exact Basic.readField_packed (f := .B) hcode _
  · exact Basic.readMessage_packed hfits _

theorem read_refused {r : Bank.Request} {plaintext : Bytes} {proposedBalance balance : Int}
    (reply : r.sendReply false proposedBalance balance = .ok plaintext) :
    ∃ (newBalance : Nat) (blob : Bytes), (newBalance : Int) = balance ∧
      Basic.readByte plaintext = .ok (1, blob) ∧
      Basic.readMessage [.I] blob = .ok ((newBalance, ()), []) := by
  obtain ⟨newBalance, hbalance, reply⟩ := PyExcept.bind_eq_ok reply
  obtain ⟨⟨hcode, hnew, -⟩, rfl⟩ := Basic.structPack_eq_ok_iff.mp reply
  refine ⟨newBalance, packed [.I] (newBalance, ()), Basic.toUnsigned_of_ok hbalance, ?_, ?_⟩
  · exact Basic.readField_packed (f := .B) hcode _
  · have hfits : Fits [.I] (newBalance, ()) := ⟨hnew, trivial⟩
    have hread := Basic.readMessage_packed hfits []
    rwa [List.append_nil] at hread

/-- The deposit protocol reads a slip with one status for each coin of its message. -/
theorem read_slip {cfg : Bank.Config} {coins : List ACoin} {finishedDeferred gotResponse : Bool}
    {body returnSlip plaintext : Bytes} {srv srv' : Bank.Server} {number total : Nat}
    {current : Bank.AcoinInterval} {curTime balance : Int} {rest : List Int}
    (sent : messageBody (.deposit coins finishedDeferred gotResponse) = .ok body)
    (verified : Bank.unpackAndVerify cfg srv body = (srv', .ok (number, returnSlip, total)))
    (reply : Bank.depositReply number returnSlip current curTime (balance :: rest) = .ok plaintext) :
    ∃ newBalance newInterval expiresCurrent expiresNext : Nat, (newBalance : Int) = balance ∧
      (newInterval : Int) = current.id ∧
      (expiresCurrent : Int) = (Bank.getIntervalTimeDeltas current curTime).1 ∧
      (expiresNext : Int) = (Bank.getIntervalTimeDeltas current curTime).2 ∧
      returnSlip.length = coins.length ∧ newInterval < 2 ^ 32 ∧
      Basic.readMessage [.I, .I, .I, .I] plaintext =
        .ok ((newBalance, newInterval, expiresCurrent, expiresNext, ()), returnSlip) := by
  obtain ⟨size, hsize, sent⟩ := PyExcept.bind_eq_ok sent
  obtain ⟨coinBytes, -, sent⟩ := PyExcept.bind_eq_ok sent
  cases sent
  obtain ⟨⟨hcount, -⟩, rfl⟩ := Basic.structPack_eq_ok_iff.mp hsize
  have hread : Basic.readShort (packed [.H] (coins.length, ()) ++ coinBytes) =
      .ok (coins.length, coinBytes) :=
    Basic.readField_packed (f := .H) hcount coinBytes
  obtain ⟨rfl, hslip⟩ := Bank.unpackAndVerify_slip hread verified
  obtain ⟨newBalance, hbalance, reply⟩ := PyExcept.bind_eq_ok reply
  obtain ⟨newInterval, hinterval, reply⟩ := PyExcept.bind_eq_ok reply
  obtain ⟨expiresCurrent, hcurrent, reply⟩ := PyExcept.bind_eq_ok reply
  obtain ⟨expiresNext, hnext, reply⟩ := PyExcept.bind_eq_ok reply
  obtain ⟨⟨h₁, h₂, h₃, h₄, -⟩, rfl⟩ := Basic.structPack_eq_ok_iff.mp reply
  refine ⟨newBalance, newInterval, expiresCurrent, expiresNext, Basic.toUnsigned_of_ok hbalance,
    Basic.toUnsigned_of_ok hinterval, Basic.toUnsigned_of_ok hcurrent, Basic.toUnsigned_of_ok hnext,
    hslip, h₂, ?_⟩
  have hfits : Fits [.I, .I, .I, .I] (newBalance, newInterval, expiresCurrent, expiresNext, ()) :=
    ⟨h₁, h₂, h₃, h₄, trivial⟩
  have hread := Basic.readMessage_packed hfits returnSlip
  have hpack : Fmt.packStr coins.length returnSlip = returnSlip := by
    rw [Fmt.packStr, ← hslip, List.take_length, Nat.sub_self]
    exact List.append_nil _
  simp only [packed, Fmt.packed, hpack, List.append_assoc, List.append_nil] at hread ⊢
  exact hread

/-! ### The two protocols -/

/-- Connection `j` is made and belongs to a request. -/
def RequestAt (j : Nat) (s : BankConnection) : Prop :=
  ∃ value number requests, s.connections[j]? =
    some { factory := .message (.request value number requests), made := true }

theorem getElem?_of_isPrefix {xs ys : List Connection} {j : Nat} {c : Connection} (h : xs <+: ys)
    (hj : xs[j]? = some c) : ys[j]? = some c := by
  obtain ⟨zs, rfl⟩ := h
  obtain ⟨hlt, -⟩ := List.getElem?_eq_some_iff.mp hj
  rwa [List.getElem?_append_left hlt]

/-- Signatures are turned into coins: what the reply told, and the connection, stay. -/
structure Collected (j : Nat) (s t : BankConnection) : Prop where
  balance : t.lastBankBalance = s.lastBankBalance
  interval : t.currentACoinInterval = s.currentACoinInterval
  history : t.history = s.history
  connection : RequestAt j s → RequestAt j t

instance (j : Nat) : IsPreorder BankConnection (Collected j) where
  refl _ := ⟨rfl, rfl, rfl, id⟩
  trans _ _ _ hst htu := ⟨htu.balance.trans hst.balance, htu.interval.trans hst.interval,
    htu.history.trans hst.history, fun h => htu.connection (hst.connection h)⟩

theorem parseResponses_collected (env : Environment) (j value number : Nat)
    (requests : List AcoinRequest) (sigs : List Bytes) :
    Moves (Collected j) (parseResponses env j value number requests sigs) := by
  induction requests generalizing sigs with
  | nil => exact .pure _
  | cons request requests ih =>
    refine .bind (.modify fun s => ⟨rfl, rfl, rfl, ?_⟩) fun _ => ?_
    · rintro ⟨v, n, rs, hj⟩
      refine ⟨value, number, requests, ?_⟩
      simp [hj, Factory.setMessage]
    · cases sigs with
      | nil => exact .throw _
      | cons sig sigs =>
        refine .bind (.attempt _) fun bankKey => .bind (.attempt _) fun coin => ?_
        cases coin with
        | none => exact ih sigs
        | some coin =>
          refine .bind (.bind .get fun s => ?_) fun _ => ih sigs
          exact .ite (fun _ => .throw _) fun _ => .modify fun _ => ⟨rfl, rfl, rfl, id⟩

theorem requestStringReceived_none {env : Environment} {s : BankConnection} {data : Bytes}
    (h : s.opened env data = none) (j value number : Nat) (requests : List AcoinRequest) :
    finish (requestStringReceived env j value number requests data) s = s := by
  rw [← outcome_finish (I := fun t => t = s), requestStringReceived, outcome_bind]
  exact decryptMessage_none h fun _ => rfl

/-- The balance and the signatures of a request were read, which is all that was recorded. -/
structure Withdrawn (s : BankConnection) (j newBalance : Nat) (sigs : List Bytes) (t : BankConnection) :
    Prop where
  balance : t.lastBankBalance = newBalance
  interval : t.currentACoinInterval = s.currentACoinInterval
  history : t.history = s.history ++ [.newBalance newBalance, .signatures sigs]
  connection : t.RequestAt j

theorem requestStringReceived_minted {env : Environment} {s : BankConnection} (hs : s.Bounded)
    {data msg blob signatures : Bytes} (h : s.opened env data = some msg) {j : Nat} (hj : s.RequestAt j)
    (value number : Nat) (requests : List AcoinRequest) {count newBalance : Nat} {sigs : List Bytes}
    (hcode : Basic.readByte msg = .ok (0, blob))
    (hread : Basic.readMessage [.I, .I] blob = .ok ((newBalance, count, ()), signatures))
    (hsigs : splitSignatures count signatures = .ok sigs) :
    Withdrawn s j newBalance sigs (finish (requestStringReceived env j value number requests data) s) := by
  apply (outcome_finish (I := Withdrawn s j newBalance sigs)).mp
  rw [requestStringReceived, outcome_bind]
  refine decryptMessage_some h ?_
  simp only [outcome_bind, outcome_attempt, hcode, hread, ↓reduceIte]
  refine (onNewBalanceFromBank_spec env hs newBalance).mono (fun _ t ht => ?_) fun _ _ h => h.elim
  simp only [hsigs, output, outcome_modify]
  -- Whatever happens to the single coins, the reply has been read.
  have hconnection : RequestAt j { t with history := t.history ++ [.signatures sigs] } := by
    obtain ⟨v, n, rs, hj⟩ := hj
    exact ⟨v, n, rs, getElem?_of_isPrefix ht.connections hj⟩
  have hinterval : t.currentACoinInterval = s.currentACoinInterval := by rw [ht.interval, max_self]
  have hhistory : t.history ++ [.signatures sigs] =
      s.history ++ [.newBalance newBalance, .signatures sigs] := by
    rw [ht.history]
    exact List.append_assoc _ _ _
  refine (parseResponses_collected env j value number requests sigs _).mono ?_ ?_
  · intro _ u hu
    exact ⟨hu.balance.trans ht.balance, hu.interval.trans hinterval, hu.history.trans hhistory,
      hu.connection hconnection⟩
  · intro _ u hu
    exact ⟨hu.balance.trans ht.balance, hu.interval.trans hinterval, hu.history.trans hhistory,
      hu.connection hconnection⟩

/-- Any other response code is followed by a balance. -/
theorem requestStringReceived_refused {env : Environment} {s : BankConnection} (hs : s.Bounded)
    {data msg blob rest : Bytes} (h : s.opened env data = some msg) (j value number : Nat)
    (requests : List AcoinRequest) {code newBalance : Nat}
    (hcode : Basic.readByte msg = .ok (code, blob)) (hne : code ≠ 0)
    (hread : Basic.readMessage [.I] blob = .ok ((newBalance, ()), rest)) :
    Updated s newBalance s.currentACoinInterval [.newBalance newBalance]
      (finish (requestStringReceived env j value number requests data) s) := by
  apply (outcome_finish (I := Updated s newBalance s.currentACoinInterval [.newBalance newBalance])).mp
  rw [requestStringReceived, outcome_bind]
  refine decryptMessage_some h ?_
  simp only [outcome_bind, outcome_attempt, hcode, hread, hne, ↓reduceIte]
  exact (onNewBalanceFromBank_spec env hs newBalance).mono (fun _ _ ht => ht) fun _ _ h => h.elim

/-- The deposit that connection `j` belongs to has got its response. -/
def respond (s : BankConnection) (j : Nat) (coins : List ACoin) (finishedDeferred : Bool) : BankConnection :=
  { s with connections := s.connections.modify j fun c =>
      { c with factory := c.factory.setMessage (.deposit coins finishedDeferred true) } }

theorem depositStringReceived_none {env : Environment} {s : BankConnection} {data : Bytes}
    (h : s.opened env data = none) (j : Nat) (coins : List ACoin) (finishedDeferred : Bool) :
    finish (depositStringReceived env j coins finishedDeferred data) s =
      s.respond j coins finishedDeferred := by
  rw [← outcome_finish (I := fun t => t = s.respond j coins finishedDeferred), depositStringReceived,
    outcome_bind, setFactory, outcome_modify, outcome_bind]
  exact decryptMessage_none h fun _ => rfl

theorem depositStringReceived_some {env : Environment} {s : BankConnection} (hs : s.Bounded)
    {data msg returnSlip : Bytes} (h : s.opened env data = some msg) (j : Nat) (coins : List ACoin)
    (finishedDeferred : Bool) {newBalance interval expiresCurrent expiresNext : Nat}
    (hinterval : interval < 2 ^ 32)
    (hread : Basic.readMessage [.I, .I, .I, .I] msg =
      .ok ((newBalance, interval, expiresCurrent, expiresNext, ()), returnSlip)) :
    Updated (s.respond j coins finishedDeferred) newBalance interval
      ([.newInfo newBalance interval expiresCurrent expiresNext, .newBalance newBalance] ++
        if returnSlip.length = coins.length then List.zipWith Output.status coins returnSlip else [])
      (finish (depositStringReceived env j coins finishedDeferred data) s) := by
  apply (outcome_finish (I := Updated (s.respond j coins finishedDeferred) newBalance interval _)).mp
  rw [depositStringReceived, outcome_bind, setFactory, outcome_modify, outcome_bind]
  refine decryptMessage_some h ?_
  simp only [outcome_bind, outcome_attempt, hread, outcome_ite, outcome_throw, outcome_modify]
  have hresponded : (s.respond j coins finishedDeferred).Bounded := hs
  refine (onNewInfo_spec env hresponded newBalance hinterval expiresCurrent expiresNext).mono
    (fun _ t ht => ?_) fun _ _ h => h.elim
  by_cases hlength : returnSlip.length = coins.length
  · rw [if_neg (fun hne => hne hlength), if_pos hlength]
    refine ⟨ht.balance, ht.interval, ht.acoins, ht.depositing, ?_, ht.connections⟩
    rw [← List.append_assoc, ← ht.history]
  · rw [if_pos hlength, if_neg hlength, List.append_nil]
    exact ht

/-! ### The end of the connection -/

def SameHoldings (s t : BankConnection) : Prop := t.holdings = s.holdings

instance : IsPreorder BankConnection SameHoldings where
  refl _ := rfl
  trans _ _ _ hst htu := Eq.trans htu hst

theorem quiet_sameHoldings : Quiet SameHoldings where
  core {s t} h := by
    unfold SameHoldings holdings
    rw [show t.lastBankBalance = s.lastBankBalance from congrArg Core.balance h,
      show t.currentACoinInterval = s.currentACoinInterval from congrArg Core.interval h,
      show t.ACoins = s.ACoins from congrArg Core.acoins h,
      show t.depositingACoins = s.depositingACoins from congrArg Core.depositing h]
  report _ := .modify fun _ => rfl
  send _ := .bind .get fun _ => .ite
    (fun _ => .bind (.modify fun _ => rfl) fun _ => .modify fun _ => rfl) fun _ => .modify fun _ => rfl

theorem onBankMessageDone_spec (s : BankConnection) :
    Outcome onBankMessageDone s (fun _ => SameHoldings s) fun _ _ => False := by
  simp only [onBankMessageDone, sendNextMessage, outcome_bind, outcome_get]
  split
  · rfl
  · rfl

theorem finishConnection_request (j value number : Nat) (requests : List AcoinRequest)
    (t : BankConnection) :
    (finish (finishConnection j true (.message (.request value number requests))) t).holdings =
      t.holdings := by
  apply (outcome_finish (I := SameHoldings t)).mp
  rw [finishConnection, outcome_bind, outcome_modify, factoryDone, messageDone, outcome_bind]
  exact (onBankMessageDone_spec _).mono (fun _ _ hu => hu) fun _ _ h => h.elim

/-- `depositingACoins` after `on_done` has gone through the coins of a deposit. -/
def withoutCoins (coins depositing : List ACoin) : List ACoin :=
  coins.foldl (fun depositing coin => depositing.eraseP fun c => c.key = coin.key) depositing

theorem finishConnection_deposit (j : Nat) (coins : List ACoin) (finishedDeferred : Bool)
    (t : BankConnection) :
    (finish (finishConnection j true (.message (.deposit coins finishedDeferred true))) t).holdings =
      { t.holdings with depositingACoins := withoutCoins coins t.depositingACoins } := by
  apply (outcome_finish (I := fun u : BankConnection => u.holdings = { t.holdings with
    depositingACoins := withoutCoins coins t.depositingACoins })).mp
  rw [finishConnection, outcome_bind, outcome_modify, factoryDone, messageDone, outcome_bind]
  refine (onBankMessageDone_spec _).mono (fun _ u hu => ?_) fun _ _ h => h.elim
  have hu : u.holdings = t.holdings := hu
  have hrest : Moves SameHoldings (when (finishedDeferred = true)
      (rescue shutdownSuccess (rescue shutdownFailure (return ())))) :=
    .when fun _ => .rescue quiet_sameHoldings.shutdownSuccess (.rescue (.throw _) (.pure _))
  simp only [onDone, outcome_bind, outcome_modify, ↓reduceIte]
  have herased : holdings { u with
      acoinDepositInProgress := false
      depositingACoins := withoutCoins coins u.depositingACoins } =
      { t.holdings with depositingACoins := withoutCoins coins t.depositingACoins } := by
    rw [← hu]
    have hdepositing : u.depositingACoins = t.depositingACoins :=
      congrArg Holdings.depositingACoins hu
    rw [hdepositing]
    rfl
  exact (hrest _).mono (fun _ _ hv => Eq.trans hv herased) fun _ _ hv => Eq.trans hv herased

theorem length_withoutCoins_le (coins depositing : List ACoin) :
    (withoutCoins coins depositing).length ≤ depositing.length := by
  induction coins generalizing depositing with
  | nil => exact Nat.le_refl _
  | cons coin coins ih => exact Nat.le_trans (ih _) List.length_eraseP_le

theorem withoutCoins_eq_iff {coins depositing : List ACoin} :
    withoutCoins coins depositing = depositing ↔ ∀ coin ∈ coins, ¬Among coin depositing := by
  induction coins generalizing depositing with
  | nil => simp [withoutCoins]
  | cons coin coins ih =>
    have hcons : withoutCoins (coin :: coins) depositing =
        withoutCoins coins (depositing.eraseP fun c => c.key = coin.key) := rfl
    by_cases hcoin : Among coin depositing
    · obtain ⟨c, hc, hkey⟩ := among_iff.mp hcoin
      -- The list is shorter once the coin has been taken out, and stays so.
      have herase := List.length_eraseP_of_mem (p := fun c => c.key = coin.key) hc (by simpa using hkey)
      have hpos := List.length_pos_of_mem hc
      have hle := length_withoutCoins_le coins (depositing.eraseP fun c => c.key = coin.key)
      constructor
      · intro heq
        rw [← hcons, heq] at hle
        omega
      · intro h
        exact absurd hcoin (h coin List.mem_cons_self)
    · have hsame : (depositing.eraseP fun c => c.key = coin.key) = depositing := by
        apply List.eraseP_of_forall_not
        intro c hc hkey
        exact hcoin (among_iff.mpr ⟨c, hc, by simpa using hkey⟩)
      rw [hcons, hsame, ih]
      simp [hcoin]

/-! ### Every reply -/

theorem connectionIn_of_getElem? {s : BankConnection} {j : Nat} {f : Factory} {made : Bool}
    (h : s.connections[j]? = some { factory := f, made }) : s.connectionIn j made = some f := by
  simp [connectionIn, h]

section Understood
variable {env : Environment} {s t : BankConnection} {j : Nat} {data : Bytes} {encoded : Encoded}

theorem understood_iff {m m' : Message}
    (hj : s.connections[j]? = some { factory := .message m, made := true })
    (ht : finish (factoryStringReceived env j data none none (.message m)) s = t)
    (hj' : t.connections[j]? = some { factory := .message m', made := true }) :
    Understood env s j data m encoded ↔ Recovered s t m encoded ∨
      (finish (finishConnection j true (.message m')) t).holdings = s.holdings := by
  have hstring : step env s (.stringReceived j data none none) = some t := by
    simp [step, connectionIn_of_getElem? hj, ht]
  constructor
  · rintro ⟨t', u, ht', hu, h⟩
    rw [hstring] at ht'
    cases ht'
    simp only [step, connectionIn_of_getElem? hj', Option.map_some, Option.some.injEq] at hu
    rwa [hu]
  · intro h
    refine ⟨t, _, hstring, ?_, h⟩
    simp [step, connectionIn_of_getElem? hj']

theorem understood_request_iff {value number : Nat} {requests : List AcoinRequest}
    (hj : s.connections[j]? = some { factory := .message (.request value number requests), made := true })
    (ht : finish (requestStringReceived env j value number requests data) s = t) (hj' : t.RequestAt j) :
    Understood env s j data (.request value number requests) encoded ↔
      Recovered s t (.request value number requests) encoded ∨ t.holdings = s.holdings := by
  obtain ⟨value', number', requests', hj'⟩ := hj'
  rw [understood_iff hj ht hj', finishConnection_request]

theorem understood_deposit_iff {coins : List ACoin} {finishedDeferred gotResponse : Bool}
    (hj : s.connections[j]? =
      some { factory := .message (.deposit coins finishedDeferred gotResponse), made := true })
    (ht : finish (depositStringReceived env j coins finishedDeferred data) s = t)
    (hj' : (s.respond j coins finishedDeferred).connections <+: t.connections)
    (hdepositing : t.depositingACoins = s.depositingACoins) :
    Understood env s j data (.deposit coins finishedDeferred gotResponse) encoded ↔
      Recovered s t (.deposit coins finishedDeferred gotResponse) encoded ∨
        t.lastBankBalance = s.lastBankBalance ∧ t.currentACoinInterval = s.currentACoinInterval ∧
          t.ACoins = s.ACoins ∧ ∀ coin ∈ coins, ¬Among coin s.depositingACoins := by
  have hresponded : (s.respond j coins finishedDeferred).connections[j]? =
      some { factory := .message (.deposit coins finishedDeferred true), made := true } := by
    simp [respond, hj, Factory.setMessage]
  rw [understood_iff hj ht (getElem?_of_isPrefix hj' hresponded), finishConnection_deposit, hdepositing,
    ← withoutCoins_eq_iff]
  simp [holdings]

end Understood

/-- When the client reads a reply to a message right, or at least loses nothing by it. The
numbers are what the error text says as a balance after a response code, and as an interval
and a balance. -/
def Readable (env : Environment) (s : BankConnection) (data : Bytes) : Message → Encoded → Prop
  | .request _ _ _, .error => s.opened env data = none ∨ s.lastBankBalance = 0x6e206572
  | .request _ _ _, _ => True
  | .deposit coins _ _, .error => (∀ coin ∈ coins, ¬Among coin s.depositingACoins) ∧
      (s.opened env data = none ∨ 0x72726f72 ≤ s.currentACoinInterval ∧ s.lastBankBalance = 0x416e2065)
  | .deposit coins _ _, _ => s.opened env data ≠ none ∨ ∀ coin ∈ coins, ¬Among coin s.depositingACoins

/-- The error text, as the codes of the characters that a reader of a reply takes for numbers. -/
theorem unpack_errorText : unpackBE (Bank.errorText.take 1) = 0x41 ∧
    unpackBE (((Bank.errorText.drop 1).take 4).take 4) = 0x6e206572 ∧
    unpack [.I, .I, .I, .I] (Bank.errorText.take 16) = (0x416e2065, 0x72726f72, 0x20776173, 0x20656e63, ()) ∧
    16 < Bank.errorText.length := by
  decide +kernel

theorem read_errorText_request : Basic.readByte Bank.errorText = .ok (0x41, Bank.errorText.drop 1) ∧
    Basic.readMessage [.I] (Bank.errorText.drop 1) = .ok ((0x6e206572, ()), Bank.errorText.drop 5) := by
  obtain ⟨hcode, hbalance, -, hlength⟩ := unpack_errorText
  constructor
  · have hbyte : Fmt.B.size ≤ Bank.errorText.length := le_trans (by decide) (Nat.le_of_lt hlength)
    rw [Basic.readByte, Basic.readField_eq (f := .B) hbyte]
    exact congrArg (fun n => Except.ok (n, Bank.errorText.drop 1)) hcode
  · have hlong : Struct.calcsize [.I] ≤ (Bank.errorText.drop 1).length := by
      rw [List.length_drop]
      exact le_trans (by decide) (Nat.sub_le_sub_right (Nat.le_of_lt hlength) 1)
    rw [Basic.readMessage, if_pos hlong, List.drop_drop]
    exact congrArg (fun n => Except.ok ((n, ()), Bank.errorText.drop 5)) hbalance

theorem read_errorText_deposit : Basic.readMessage [.I, .I, .I, .I] Bank.errorText =
    .ok ((0x416e2065, 0x72726f72, 0x20776173, 0x20656e63, ()), Bank.errorText.drop 16) := by
  obtain ⟨-, -, hvals, hlength⟩ := unpack_errorText
  rw [Basic.readMessage, if_pos (show Struct.calcsize [.I, .I, .I, .I] ≤ Bank.errorText.length from Nat.le_of_lt hlength)]
  exact congrArg (fun vals => Except.ok (vals, Bank.errorText.drop 16)) hvals

section Replies
variable {env : Environment} {s : BankConnection} (hs : s.Bounded) {j : Nat} {data : Bytes}
include hs

theorem request_understood_iff {cfg : Bank.Config} {value number : Nat} {requests : List AcoinRequest}
    (hj : s.connections[j]? = some { factory := .message (.request value number requests), made := true })
    {plaintext : Bytes} {encoded : Encoded}
    (hanswer : Answers cfg (.request value number requests) plaintext encoded)
    (hdata : s.opened env data = none ∨ s.opened env data = some plaintext) :
    Understood env s j data (.request value number requests) encoded ↔
      Readable env s data (.request value number requests) encoded := by
  rcases hdata with hnone | hsome
  · -- The string does not decrypt, and nothing has happened.
    rw [understood_request_iff hj (requestStringReceived_none hnone j value number requests)
      ⟨value, number, requests, hj⟩]
    cases hanswer with
    | minted | refused => simp [Readable]
    | error => simp [Readable, hnone]
  · cases hanswer with
    | minted sent signed proposed funds reply =>
      obtain ⟨newBalance, blob, sigs, hbalance, hcode, hread, hsigs, hlength, hsizes, hflatten⟩ :=
        read_minted signed reply
      have ht := requestStringReceived_minted hs hsome ⟨value, number, requests, hj⟩ value number requests
        hcode hread hsigs
      rw [understood_request_iff hj rfl ht.connection]
      refine iff_of_true (Or.inl ?_) trivial
      exact ⟨newBalance, sigs, hbalance, hlength, hsizes, hflatten, ht.history, ht.balance, ht.interval⟩
    | refused sent signed proposed funds reply =>
      obtain ⟨newBalance, blob, hbalance, hcode, hread⟩ := read_refused reply
      have ht := requestStringReceived_refused hs hsome j value number requests hcode (by decide) hread
      rw [understood_request_iff hj rfl ⟨value, number, requests, getElem?_of_isPrefix ht.connections hj⟩]
      refine iff_of_true (Or.inl ⟨newBalance, hbalance, ht.history, ht.balance, ?_⟩) trivial
      rw [ht.interval, max_self]
    | error =>
      obtain ⟨hcode, hread⟩ := read_errorText_request
      have ht := requestStringReceived_refused hs hsome j value number requests hcode (by decide) hread
      rw [understood_request_iff hj rfl ⟨value, number, requests, getElem?_of_isPrefix ht.connections hj⟩]
      have hsame : (finish (requestStringReceived env j value number requests data) s).holdings =
          { s.holdings with lastBankBalance := 0x6e206572 } := by
        unfold holdings
        rw [ht.balance, ht.interval, max_self, ht.acoins (Int.le_refl _), ht.depositing]
      rw [hsame]
      simp [Recovered, Readable, hsome, holdings, eq_comm]

theorem deposit_understood_iff {cfg : Bank.Config} {coins : List ACoin} {finishedDeferred gotResponse : Bool}
    (hj : s.connections[j]? =
      some { factory := .message (.deposit coins finishedDeferred gotResponse), made := true })
    {plaintext : Bytes} {encoded : Encoded}
    (hanswer : Answers cfg (.deposit coins finishedDeferred gotResponse) plaintext encoded)
    (hdata : s.opened env data = none ∨ s.opened env data = some plaintext) :
    Understood env s j data (.deposit coins finishedDeferred gotResponse) encoded ↔
      Readable env s data (.deposit coins finishedDeferred gotResponse) encoded := by
  rcases hdata with hnone | hsome
  · rw [understood_deposit_iff hj (depositStringReceived_none hnone j coins finishedDeferred)
      (List.prefix_refl _) rfl]
    cases hanswer with
    | slip => simp [Readable, hnone, respond, Recovered]
    | error => simp [Readable, hnone, respond, Recovered]
  · cases hanswer with
    | slip sent verified reply =>
      obtain ⟨newBalance, newInterval, expiresCurrent, expiresNext, hbalance, hinterval, hcurrent, hnext,
        hslip, hlt, hread⟩ := read_slip sent verified reply
      have ht := depositStringReceived_some hs hsome j coins finishedDeferred hlt hread
      rw [understood_deposit_iff hj rfl ht.connections ht.depositing]
      refine iff_of_true (Or.inl ?_) (Or.inl (by simp [hsome]))
      have hhistory := ht.history
      rw [if_pos hslip, ← List.append_assoc] at hhistory
      refine ⟨newBalance, newInterval, expiresCurrent, expiresNext, hbalance, hinterval, hcurrent, hnext,
        hslip, hhistory, ht.balance, ?_⟩
      rw [ht.interval, hinterval]
      rfl
    | error =>
      have ht := depositStringReceived_some hs hsome j coins finishedDeferred (by decide)
        read_errorText_deposit
      rw [understood_deposit_iff hj rfl ht.connections ht.depositing, ht.balance, ht.interval]
      have hmax : max s.currentACoinInterval 0x72726f72 = s.currentACoinInterval ↔
          0x72726f72 ≤ s.currentACoinInterval := max_eq_left_iff
      constructor
      · rintro (h | ⟨hbalance, hinterval, -, hcoins⟩)
        · exact h.elim
        · exact ⟨hcoins, Or.inr ⟨hmax.mp hinterval, hbalance.symm⟩⟩
      · rintro ⟨hcoins, h | ⟨hinterval, hbalance⟩⟩
        · rw [hsome] at h
          cases h
        · exact Or.inr ⟨hbalance.symm, hmax.mpr hinterval, ht.acoins hinterval, hcoins⟩

end Replies

/-- In every reachable state, whatever the bank may answer to a request or a deposit, the client
understands it exactly when it is readable. A string is opened as the plaintext that the bank
encrypted, or not at all: the error text may be sent before there is a key, and the client may
not be logged in any more. -/
theorem reply_understood_iff (env : Environment) (cfg : Bank.Config) {as : List Action}
    {s : BankConnection} (hs : Run (step env) (fun _ _ => True) new as s) {j : Nat} {m : Message}
    (hj : s.connections[j]? = some { factory := .message m, made := true })
    {plaintext data : Bytes} {encoded : Encoded} (hanswer : Answers cfg m plaintext encoded)
    (hdata : s.opened env data = none ∨ s.opened env data = some plaintext) :
    Understood env s j data m encoded ↔ Readable env s data m encoded := by
  cases m with
  | request value number requests => exact request_understood_iff (run_bounded hs) hj hanswer hdata
  | deposit coins finishedDeferred gotResponse =>
    exact deposit_understood_iff (run_bounded hs) hj hanswer hdata

/-- The reply to a deposit without coins, of balance 7 in interval 3, ten seconds before its end. -/
def exampleSlip : Bytes := packBE 4 7 ++ packBE 4 3 ++ packBE 4 10 ++ packBE 4 20

/-- A deposit that only asks for the balance, and the reply to it. -/
theorem reply_understood_iff_empty_deposit :
    ∃ s, Run (step exampleEnvironment) (fun _ _ => True) new
        (loggingIn 0 2 ++ [.connectionLost 0, .depositAcoins [], .connectionMade 0]) s ∧
      Understood exampleEnvironment s 0 (0 :: exampleSlip) (.deposit [] false false)
        (.slip 7 3 10 20 []) := by
  have hend : (exec (step exampleEnvironment) new
      (loggingIn 0 2 ++ [.connectionLost 0, .depositAcoins [], .connectionMade 0])).any (fun s =>
        decide (s.connections[0]? =
            some { factory := .message (.deposit [] false false), made := true } ∧
          s.opened exampleEnvironment (0 :: exampleSlip) = some exampleSlip)) = true := by
    decide
  obtain ⟨s, hrun, hdecide⟩ := exists_run hend (eachStep_true _ _)
  obtain ⟨hj, hopened⟩ := of_decide_eq_true hdecide
  have hanswer : Answers Bank.Config.example (.deposit [] false false) exampleSlip
      (.slip 7 3 10 20 []) := by
    have hverified : Bank.unpackAndVerify Bank.Config.example Bank.Server.initial [0, 0] =
        (Bank.Server.initial, .ok (0, [], 0)) := rfl
    have hreply : Bank.depositReply 0 [] ⟨3, 110, 120⟩ 100 [7] = .ok exampleSlip := rfl
    exact .slip rfl hverified hreply
  have hreadable : Readable exampleEnvironment s (0 :: exampleSlip) (.deposit [] false false)
      (.slip 7 3 10 20 []) := Or.inr (by simp)
  exact ⟨s, hrun, (reply_understood_iff exampleEnvironment Bank.Config.example hrun hj hanswer
    (Or.inr hopened)).mpr hreadable⟩

/-- The request on an open connection, with its value, number and blinded coins. -/
def requestOn (s : BankConnection) (j : Nat) : Option (Nat × Nat × List AcoinRequest) :=
  match s.connections[j]? with
  | some { factory := .message (.request value number requests), made := true } =>
    some (value, number, requests)
  | _ => none

theorem connection_of_requestOn {s : BankConnection} {j value number : Nat} {requests : List AcoinRequest}
    (h : s.requestOn j = some (value, number, requests)) :
    s.connections[j]? = some { factory := .message (.request value number requests), made := true } := by
  unfold requestOn at h
  split at h
  · rename_i hj
    cases h
    exact hj
  · cases h

/-- The error text sent in answer to a request for one coin is read as a balance. -/
theorem error_read_as_balance :
    ∃ s m, Run (step exampleEnvironment) (fun _ _ => True) new
        (loggingIn 1 2 ++ [.connectionLost 0, .connectionMade 0]) s ∧
      s.connections[0]? = some { factory := .message m, made := true } ∧
      Answers Bank.Config.example m Bank.errorText .error ∧
      s.opened exampleEnvironment (0 :: Bank.errorText) = some Bank.errorText ∧
      ¬Understood exampleEnvironment s 0 (0 :: Bank.errorText) m .error := by
  have hend : (exec (step exampleEnvironment) new
      (loggingIn 1 2 ++ [.connectionLost 0, .connectionMade 0])).any (fun s =>
        (s.requestOn 0).isSome &&
        decide (s.opened exampleEnvironment (0 :: Bank.errorText) = some Bank.errorText ∧
          s.lastBankBalance ≠ 0x6e206572)) = true := by
    decide +kernel
  obtain ⟨s, hrun, hdecide⟩ := exists_run hend (eachStep_true _ _)
  rw [Bool.and_eq_true] at hdecide
  obtain ⟨hrequest, hdecide⟩ := hdecide
  obtain ⟨hopened, hbalance⟩ := of_decide_eq_true hdecide
  obtain ⟨⟨value, number, requests⟩, hrequest⟩ := Option.isSome_iff_exists.mp hrequest
  have hj := connection_of_requestOn hrequest
  have hanswer : Answers Bank.Config.example (.request value number requests) Bank.errorText .error :=
    .error _
  refine ⟨s, .request value number requests, hrun, hj, hanswer, hopened, ?_⟩
  rw [request_understood_iff (run_bounded hrun) hj hanswer (Or.inr hopened)]
  rintro (h | h)
  · rw [hopened] at h
    cases h
  · exact hbalance h

end BankConnection

end BitBlinder.Client
