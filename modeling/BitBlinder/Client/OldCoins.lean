import BitBlinder.Client.LiveCoins

/-!
# Expired coins leave the wallet

`get_acoins` asserts that no coins are left of an interval before the last
one. Learning a new interval deletes one set only, that of the interval before
the current one, so this rests on two things: no interval with coins is passed
over, and no withdrawal is answered when its coins have already expired.
-/

namespace BitBlinder.Client

set_option autoImplicit false

open Struct Effects

namespace BankConnection

/-- Every coin in the wallet is of the last interval or a later one. -/
def NoOldCoins (s : BankConnection) : Prop :=
  ∀ c, s.ACoins.Holds c → s.currentACoinInterval - 1 ≤ c.interval

/-- No interval between the current one and the one before `interval` has coins. -/
def PassesNoCoins (s : BankConnection) (interval : Int) : Prop :=
  ∀ key ∈ s.ACoins.sortedKeys, s.currentACoinInterval ≤ key → key < interval - 1 →
    (s.ACoins.coinsOf key).length = 0

instance (s : BankConnection) (interval : Int) : Decidable (s.PassesNoCoins interval) :=
  inferInstanceAs (Decidable (∀ key ∈ _, _))

/-- The interval that a successful reply to a login announces. -/
def loginNews (data : Bytes) : PyExcept (Option Nat) := do
  let (version, data) ← Basic.readByte data
  let (returnCode, data) ← Basic.readByte data
  let ((_, interval, _), _) ← Basic.readMessage [.I, .I, .I, .I, .s 4, .I] data
  return if version = 1 ∧ returnCode = 1 then some interval else none

/-- The interval that a reply to a deposit announces. -/
def depositNews (msg : Bytes) : PyExcept Nat := do
  let ((_, interval, _), _) ← Basic.readMessage [.I, .I, .I, .I] msg
  return interval

/-- The signatures that a reply to a withdrawal brings. -/
def mintedNews (msg : Bytes) : PyExcept (List Bytes) := do
  let (responseCode, msg) ← Basic.readByte msg
  let ((_, count, _), coins) ← Basic.readMessage [.I, .I] msg
  let sigs ← splitSignatures count coins
  return if responseCode = 0 then sigs else []

/-- The interval that a reply announces. -/
def announced (env : Environment) (s : BankConnection) (data : Bytes) : Factory → Option Nat
  | .login _ => (loginNews data).toOption.join
  | .message (.deposit _ _ _) => (s.opened env data).bind fun msg => (depositNews msg).toOption
  | .message (.request _ _ _) => none

/-- The requests for which a reply brings a signature. -/
def signed (env : Environment) (s : BankConnection) (data : Bytes) : Factory → List AcoinRequest
  | .message (.request _ _ requests) =>
    requests.take (((s.opened env data).bind fun msg => (mintedNews msg).toOption).getD []).length
  | _ => []

/-- No step passes over an interval with coins or brings in a coin that has expired. -/
def NothingExpires (env : Environment) (s : BankConnection) : Action → Prop
  | .onNewInfo _ interval _ _ => s.PassesNoCoins interval.toNat
  | .addAcoin coin => s.currentACoinInterval - 1 ≤ coin.interval
  | .stringReceived j data _ _ => ∀ f ∈ s.connectionIn j true,
      (∀ interval ∈ s.announced env data f, s.PassesNoCoins interval) ∧
      ∀ request ∈ s.signed env data f, s.currentACoinInterval - 1 ≤ request.interval
  | _ => True

instance decidableNothingExpires (env : Environment) (s : BankConnection) :
    (a : Action) → Decidable (s.NothingExpires env a)
  | .onNewInfo _ interval _ _ => inferInstanceAs (Decidable (s.PassesNoCoins interval.toNat))
  | .addAcoin coin => inferInstanceAs (Decidable (s.currentACoinInterval - 1 ≤ coin.interval))
  | .stringReceived j _ _ _ => inferInstanceAs (Decidable (∀ f ∈ s.connectionIn j true, _ ∧ _))
  | .start | .login | .requestCoins _ _ | .depositAcoins _ | .onEarnedCoin _ | .getAcoins _ | .updateCoins
  | .checkNextAcoins | .onUpdate | .stop | .shutdownTimeout | .connectionMade _ | .connectionFailed _
  | .connectionLost _ => isTrue trivial

theorem noOldCoins_iff {s : BankConnection} :
    s.NoOldCoins ↔ ∀ key, key < s.currentACoinInterval - 1 → s.ACoins.coinsOf key = [] := by
  constructor
  · intro h key hkey
    by_contra hne
    obtain ⟨c, hc⟩ := List.exists_mem_of_ne_nil _ hne
    have hinterval := Wallet.interval_of_mem_coinsOf hc
    have hle := h c (Wallet.holds_of_among_coinsOf (among_of_mem hc))
    omega
  · intro h c hc
    by_contra hlt
    unfold Wallet.Holds at hc
    rw [h c.interval (by omega)] at hc
    exact not_among_nil c hc

/-- The interval has not changed, and no old coins have come in. -/
structure KeepsFresh (s t : BankConnection) : Prop where
  interval : t.currentACoinInterval = s.currentACoinInterval
  fresh : s.NoOldCoins → t.NoOldCoins

instance : IsPreorder BankConnection KeepsFresh where
  refl _ := ⟨rfl, id⟩
  trans _ _ _ hst htu := ⟨htu.interval.trans hst.interval, fun h => htu.fresh (hst.fresh h)⟩

theorem onWallet_keepsFresh : OnWallet KeepsFresh := by
  intro s t hinterval hcoins
  refine ⟨hinterval, fun h c hc => ?_⟩
  rw [hinterval]
  exact h c (hcoins c hc)

theorem quiet_keepsFresh : Quiet KeepsFresh := onWallet_keepsFresh.draining.toQuiet

theorem addAcoin_fresh {s : BankConnection} {coin : ACoin} (h : s.currentACoinInterval - 1 ≤ coin.interval) :
    Outcome (addAcoin coin) s (fun _ => KeepsFresh s) fun _ => KeepsFresh s := by
  simp only [addAcoin, outcome_bind, outcome_get, outcome_ite, outcome_throw, outcome_modify]
  split
  · exact refl_of KeepsFresh s
  · refine ⟨rfl, fun hs c hc => ?_⟩
    rcases Wallet.holds_add.mp hc with hkey | hc
    · have hinterval : c.interval = coin.interval := congrArg (fun k => k.2.2) hkey
      rw [hinterval]
      exact h
    · exact hs c hc

theorem onNewBalanceFromBank_fresh (env : Environment) (newBalance : Nat) :
    Moves KeepsFresh (onNewBalanceFromBank env newBalance) := by
  refine .bind (quiet_keepsFresh.report rfl) fun _ => .bind (quiet_keepsFresh.readClock env) fun curTime => ?_
  exact .bind (.modify fun _ => onWallet_keepsFresh.same rfl rfl) fun _ => quiet_keepsFresh.checkWalletBalance env

theorem learnInterval_fresh {s : BankConnection} (hs : s.NoOldCoins) {interval : Nat}
    (hpass : s.PassesNoCoins interval) (curTime random₁ random₂ : Rat) (expiresCurrent expiresNext : Nat) :
    (learnInterval curTime random₁ random₂ interval expiresCurrent expiresNext s).NoOldCoins := by
  intro c hc
  obtain ⟨hc, hne⟩ := Wallet.holds_delete.mp hc
  have hle : s.currentACoinInterval - 1 ≤ c.interval := hs c hc
  change (interval : Int) - 1 ≤ c.interval
  by_contra hlt
  have hcoins : s.ACoins.coinsOf c.interval ≠ [] := by
    intro hnil
    unfold Wallet.Holds at hc
    rw [hnil] at hc
    exact not_among_nil c hc
  have hzero := hpass c.interval (Wallet.mem_sortedKeys_of_ne_nil hcoins) (by omega) (by omega)
  exact hcoins (List.length_eq_zero_iff.mp hzero)

theorem onNewInfo_fresh (env : Environment) {s : BankConnection} (hs : s.NoOldCoins) {interval : Nat}
    (hpass : s.PassesNoCoins interval) (balance expiresCurrent expiresNext : Nat) :
    Outcome (onNewInfo env balance interval expiresCurrent expiresNext) s (fun _ => NoOldCoins)
      fun _ => NoOldCoins := by
  have hbalance : ∀ t, t.NoOldCoins → Outcome (onNewBalanceFromBank env balance) t (fun _ => NoOldCoins)
      fun _ => NoOldCoins := by
    intro t ht
    exact (onNewBalanceFromBank_fresh env balance t).mono (fun _ _ h => h.fresh ht) fun _ _ h => h.fresh ht
  simp only [onNewInfo, output, readClock, readRandom, outcome_bind, outcome_get, outcome_modify, outcome_when,
    outcome_pure]
  split
  · apply hbalance
    exact learnInterval_fresh (s := { s with
      history := s.history ++ [.newInfo balance interval expiresCurrent expiresNext]
      clockReads := s.clockReads + 1
      randomReads := s.randomReads + 1 + 1 }) hs hpass _ _ _ _ _
  · exact hbalance _ hs

theorem interval_of_isFreshClient {coin : ACoin} {current : Int} (h : coin.isFreshClient current = true) :
    current - 1 ≤ coin.interval := by
  unfold ACoin.isFreshClient at h
  rw [Bool.and_eq_true] at h
  exact of_decide_eq_true h.1

theorem readCoins_fresh (fuel : Nat) (data : Bytes) : Moves KeepsFresh (readCoins addAcoin fuel data) := by
  induction fuel generalizing data with
  | zero => exact .pure _
  | succ fuel ih =>
    intro s
    simp only [readCoins, outcome_bind, outcome_get, outcome_when, outcome_attempt]
    split
    · cases ACoin.readBinary data with
      | error e => exact refl_of KeepsFresh s
      | ok p =>
        obtain ⟨coin, rest⟩ := p
        dsimp only
        split
        · rename_i hfresh
          refine (addAcoin_fresh (interval_of_isFreshClient hfresh)).mono (fun _ t hst => ?_) fun _ _ h => h
          exact (ih rest t).mono (fun _ _ htu => trans_of KeepsFresh hst htu)
            fun _ _ htu => trans_of KeepsFresh hst htu
        · exact ih rest s
    · exact refl_of KeepsFresh s

theorem loadCoins_fresh (acoins acoinsInDeposit : Option Bytes) :
    Moves KeepsFresh (loadCoins acoins acoinsInDeposit) := by
  refine .rescue (.bind .get fun s => .bind (.when fun _ => .throw _) fun _ => ?_) (.pure _)
  refine .bind ?_ fun _ => .bind .get fun t => .bind (.when fun _ => .throw _) fun _ => ?_
  · cases acoins with
    | none => exact .pure _
    | some data => exact readCoins_fresh data.length data
  · have happend : ∀ coin, Moves KeepsFresh (appendDepositing coin) := fun _ =>
      .modify fun _ => onWallet_keepsFresh.same rfl rfl
    exact moves_readFile happend acoinsInDeposit

theorem onLoginSuccess_fresh (env : Environment) (authBlob : Bytes) (acoins acoinsInDeposit : Option Bytes) :
    Moves KeepsFresh (onLoginSuccess env authBlob acoins acoinsInDeposit) := by
  have hsame : ∀ {s t : BankConnection}, t.core = s.core → KeepsFresh s t := fun h => quiet_keepsFresh.core h
  refine .bind .get fun s => .when fun _ => .bind (.modify fun _ => hsame rfl) fun _ => ?_
  refine .ite (fun _ => .throw _) fun _ => .bind (.modify fun _ => hsame rfl) fun _ => .when fun _ => ?_
  refine .bind (.modify fun _ => hsame rfl) fun _ => .bind (loadCoins_fresh acoins acoinsInDeposit) fun _ => ?_
  exact .bind (quiet_keepsFresh.checkWalletBalance env) fun _ => .modify fun _ => hsame rfl

theorem loginStringReceived_fresh {env : Environment} {s : BankConnection} (hs : s.NoOldCoins) {data : Bytes}
    (hpass : ∀ interval ∈ (loginNews data).toOption.join, s.PassesNoCoins interval) (j : Nat)
    (acoins acoinsInDeposit : Option Bytes) :
    (finish (loginStringReceived env j data acoins acoinsInDeposit) s).NoOldCoins := by
  rw [← outcome_finish (I := NoOldCoins), loginStringReceived, setFactory, outcome_bind, outcome_modify,
    outcome_rescue]
  generalize hu : ({ s with connections := s.connections.modify j fun c =>
    { c with factory := c.factory.setDone } } : BankConnection) = u
  have hu : u.NoOldCoins ∧ ∀ {interval : Nat}, s.PassesNoCoins interval → u.PassesNoCoins interval := by
    subst hu
    exact ⟨hs, id⟩
  have hfailure : ∀ t, t.NoOldCoins → Outcome onLoginFailure t (fun _ => NoOldCoins) fun _ => NoOldCoins := by
    intro t ht
    exact (quiet_keepsFresh.onLoginFailure t).mono (fun _ _ h => h.fresh ht) fun _ _ h => h.fresh ht
  suffices h : Outcome _ u (fun _ => NoOldCoins) fun _ => NoOldCoins from h.mono (fun _ _ h => h) fun _ => hfailure
  simp only [outcome_bind, outcome_attempt]
  cases hversion : Basic.readByte data with
  | error e => exact hu.1
  | ok p =>
    dsimp only
    split
    · rename_i hone
      simp only [outcome_bind, outcome_attempt]
      cases hcode : Basic.readByte p.2 with
      | error e => exact hu.1
      | ok q =>
        dsimp only
        split
        · rename_i hsuccess
          simp only [outcome_bind, outcome_attempt]
          cases hread : Basic.readMessage [.I, .I, .I, .I, .s 4, .I] q.2 with
          | error e => exact hu.1
          | ok r =>
            obtain ⟨⟨balance, interval, expiresCurrent, expiresNext, _, _, _⟩, blob⟩ := r
            have hnews : loginNews data = .ok (some interval) := by
              simp [loginNews, hversion, hcode, hread, hone, hsuccess]
            have hinterval : u.PassesNoCoins interval := hu.2 (hpass interval (by rw [hnews]; rfl))
            refine (onNewInfo_fresh env hu.1 hinterval balance expiresCurrent expiresNext).mono ?_ fun _ _ h => h
            intro _ t ht
            exact (onLoginSuccess_fresh env _ acoins acoinsInDeposit t).mono (fun _ _ h => h.fresh ht)
              fun _ _ h => h.fresh ht
        · exact hu.1
    · exact hu.1

theorem depositStringReceived_fresh {env : Environment} {s : BankConnection} (hs : s.NoOldCoins) {data : Bytes}
    (hpass : ∀ interval ∈ (s.opened env data).bind fun msg => (depositNews msg).toOption, s.PassesNoCoins interval)
    (j : Nat) (coins : List ACoin) (finishedDeferred : Bool) :
    (finish (depositStringReceived env j coins finishedDeferred data) s).NoOldCoins := by
  rw [← outcome_finish (I := NoOldCoins), depositStringReceived, setFactory, outcome_bind, outcome_modify,
    outcome_bind]
  cases hopened : s.opened env data with
  | none => exact decryptMessage_none hopened fun _ => hs
  | some msg =>
    refine decryptMessage_some hopened ?_
    simp only [outcome_bind, outcome_attempt]
    cases hread : Basic.readMessage [.I, .I, .I, .I] msg with
    | error e => exact hs
    | ok r =>
      obtain ⟨⟨balance, interval, expiresCurrent, expiresNext, _⟩, returnSlip⟩ := r
      have hinterval : s.PassesNoCoins interval := by
        apply hpass
        have hnews : depositNews msg = .ok interval := by simp [depositNews, hread]
        rw [hopened, Option.bind_some, hnews]
        rfl
      refine (onNewInfo_fresh env ?_ ?_ balance expiresCurrent expiresNext).mono ?_ fun _ _ h => h
      · exact hs
      · exact hinterval
      · intro _ t ht
        rw [outcome_ite, outcome_throw, outcome_modify]
        split
        · exact ht
        · exact ht

theorem parseResponses_fresh (env : Environment) (j value number : Nat) {s : BankConnection}
    {requests : List AcoinRequest} {sigs : List Bytes}
    (h : ∀ request ∈ requests.take sigs.length, s.currentACoinInterval - 1 ≤ request.interval) :
    Outcome (parseResponses env j value number requests sigs) s (fun _ => KeepsFresh s) fun _ => KeepsFresh s := by
  induction requests generalizing s sigs with
  | nil => exact refl_of KeepsFresh s
  | cons request requests ih =>
    unfold parseResponses setFactory
    rw [outcome_bind, outcome_modify]
    have hpop : KeepsFresh s { s with connections := s.connections.modify j fun c =>
        { c with factory := c.factory.setMessage (.request value number requests) } } := ⟨rfl, id⟩
    revert hpop
    generalize ({ s with connections := s.connections.modify j fun c =>
      { c with factory := c.factory.setMessage (.request value number requests) } } : BankConnection) = u
    intro hpop
    cases sigs with
    | nil => exact hpop
    | cons sig sigs =>
      rw [List.length_cons, List.take_succ_cons] at h
      simp only [outcome_bind, outcome_attempt]
      cases getAcoinKey env request.value with
      | error e => exact hpop
      | ok bankKey =>
        dsimp only
        cases hcoin : parseAcoinResponse bankKey sig request false with
        | error e => exact hpop
        | ok coin =>
          obtain ⟨sig', -, hcoin⟩ := PyExcept.bind_eq_ok hcoin
          cases hcoin
          -- The coin is of the interval in which it was asked for.
          have hrequest : u.currentACoinInterval - 1 ≤ request.interval := by
            rw [hpop.interval]
            exact h request List.mem_cons_self
          simp only [outcome_bind]
          refine Outcome.mono (addAcoin_fresh ?_) (fun _ t hst => ?_) fun _ _ hst => trans_of KeepsFresh hpop hst
          · exact hrequest
          have hst : KeepsFresh s t := trans_of KeepsFresh hpop hst
          have hrest : ∀ r ∈ requests.take sigs.length, t.currentACoinInterval - 1 ≤ r.interval := by
            intro r hr
            rw [hst.interval]
            exact h r (List.mem_cons_of_mem _ hr)
          exact (ih hrest).mono (fun _ _ htu => trans_of KeepsFresh hst htu)
            fun _ _ htu => trans_of KeepsFresh hst htu

theorem requestStringReceived_fresh {env : Environment} {s : BankConnection} (hs : s.NoOldCoins) {data : Bytes}
    {requests : List AcoinRequest} {value number : Nat}
    (hsigned : ∀ request ∈ s.signed env data (.message (.request value number requests)),
      s.currentACoinInterval - 1 ≤ request.interval) (j : Nat) :
    (finish (requestStringReceived env j value number requests data) s).NoOldCoins := by
  rw [← outcome_finish (I := NoOldCoins), requestStringReceived, outcome_bind]
  cases hopened : s.opened env data with
  | none => exact decryptMessage_none hopened fun _ => hs
  | some msg =>
    refine decryptMessage_some hopened ?_
    simp only [outcome_bind, outcome_attempt]
    cases hcode : Basic.readByte msg with
    | error e => exact hs
    | ok p =>
      dsimp only
      split
      · rename_i hzero
        simp only [outcome_bind, outcome_attempt]
        cases hread : Basic.readMessage [.I, .I] p.2 with
        | error e => exact hs
        | ok q =>
          obtain ⟨⟨newBalance, count, _⟩, coins⟩ := q
          refine (onNewBalanceFromBank_fresh env newBalance s).mono (fun _ t hst => ?_) fun _ _ h => h.fresh hs
          cases hsigs : splitSignatures count coins with
          | error e => exact hst.fresh hs
          | ok sigs =>
            have hnews : mintedNews msg = .ok sigs := by simp [mintedNews, hcode, hread, hsigs, hzero]
            have hrequests : ∀ request ∈ requests.take sigs.length, t.currentACoinInterval - 1 ≤ request.interval := by
              intro request hrequest
              rw [hst.interval]
              apply hsigned
              rw [signed, hopened, Option.bind_some, hnews]
              exact hrequest
            simp only [output, outcome_modify]
            refine (parseResponses_fresh env j value number ?_).mono (fun _ _ h => h.fresh ?_)
              fun _ _ h => h.fresh ?_
            · exact hrequests
            · exact hst.fresh hs
            · exact hst.fresh hs
      · simp only [outcome_bind, outcome_attempt]
        cases Basic.readMessage [.I] p.2 with
        | error e => exact hs
        | ok q => exact (onNewBalanceFromBank_fresh env _ s).mono (fun _ _ h => h.fresh hs) fun _ _ h => h.fresh hs

theorem onEarnedCoin_fresh (env : Environment) (coin : ACoin) : Moves KeepsFresh (onEarnedCoin env coin) := by
  intro s
  simp only [onEarnedCoin, outcome_bind, outcome_get, outcome_attempt]
  cases getAcoinKey env coin.value with
  | error e => exact refl_of KeepsFresh s
  | ok bankKey =>
    dsimp only
    cases hvalid : coin.validate bankKey ACoin.isFreshClient s.currentACoinInterval with
    | error e => exact refl_of KeepsFresh s
    | ok _ =>
      have hfresh := (ACoin.isValid_eq_true (by rw [ACoin.isValid, hvalid])).1
      refine (addAcoin_fresh (interval_of_isFreshClient hfresh)).mono (fun _ t hst => ?_) fun _ _ h => h
      rw [outcome_modify]
      exact ⟨hst.interval, hst.fresh⟩

theorem onUpdate_fresh (env : Environment) : Moves KeepsFresh (onUpdate env) := by
  refine .bind (quiet_keepsFresh.readClock env) fun curTime => .bind .get fun s => .when fun _ => ?_
  refine .bind (.modify fun _ => quiet_keepsFresh.core rfl) fun _ => ?_
  exact onWallet_keepsFresh.draining.deposit []

theorem step_fresh {env : Environment} {s t : BankConnection} {a : Action} (hs : s.NoOldCoins)
    (hok : s.NothingExpires env a) (h : step env s a = some t) : t.NoOldCoins := by
  have hquiet : Quiet KeepsFresh := quiet_keepsFresh
  have hR : OnWallet KeepsFresh := onWallet_keepsFresh
  cases a with
  | start => cases h; exact (hquiet.start.finish s).fresh hs
  | login => cases h; exact (hR.login.finish s).fresh hs
  | requestCoins value number => cases h; exact ((hquiet.requestCoins env value number).finish s).fresh hs
  | depositAcoins coins => cases h; exact ((hR.draining.deposit coins).finish s).fresh hs
  | addAcoin coin =>
    cases h
    rw [← outcome_finish (I := NoOldCoins)]
    exact (addAcoin_fresh hok).mono (fun _ _ h => h.fresh hs) fun _ _ h => h.fresh hs
  | onEarnedCoin coin => cases h; exact ((onEarnedCoin_fresh env coin).finish s).fresh hs
  | getAcoins value => cases h; exact ((hR.draining.spendAcoins env value).finish s).fresh hs
  | updateCoins => cases h; exact ((hR.draining.updateCoins env).finish s).fresh hs
  | checkNextAcoins => cases h; exact ((hquiet.checkNextAcoins env).finish s).fresh hs
  | onUpdate => cases h; exact ((onUpdate_fresh env).finish s).fresh hs
  | onNewInfo balance interval expiresCurrent expiresNext =>
    cases h
    rw [← outcome_finish (I := NoOldCoins)]
    exact onNewInfo_fresh env hs hok _ _ _
  | stop => cases h; exact ((hR.draining.stop env).finish s).fresh hs
  | shutdownTimeout =>
    simp only [step, Option.ite_none_right_eq_some] at h
    obtain ⟨-, h⟩ := h
    cases h
    exact (hquiet.shutdownDone.finish s).fresh hs
  | connectionMade j =>
    obtain ⟨f, -, rfl⟩ := Option.map_eq_some_iff.mp h
    exact ((hR.establish j f).finish s).fresh hs
  | stringReceived j data acoins acoinsInDeposit =>
    obtain ⟨f, hf, rfl⟩ := Option.map_eq_some_iff.mp h
    obtain ⟨hpass, hsigned⟩ := hok f hf
    cases f with
    | login done => exact loginStringReceived_fresh hs hpass j acoins acoinsInDeposit
    | message m =>
      cases m with
      | request value number requests => exact requestStringReceived_fresh hs hsigned j
      | deposit coins finishedDeferred gotResponse =>
        exact depositStringReceived_fresh hs hpass j coins finishedDeferred
  | connectionFailed j =>
    obtain ⟨f, -, rfl⟩ := Option.map_eq_some_iff.mp h
    exact ((hR.finishConnection j false f).finish s).fresh hs
  | connectionLost j =>
    obtain ⟨f, -, rfl⟩ := Option.map_eq_some_iff.mp h
    exact ((hR.finishConnection j true f).finish s).fresh hs

theorem run_fresh {env : Environment} {as : List Action} {s : BankConnection}
    (h : Run (step env) (NothingExpires env) new as s) : s.NoOldCoins :=
  h.invariant (fun hs hok hstep => step_fresh hs hok hstep) fun c hc => absurd hc (Wallet.holds_empty c)

/-- What `get_acoins` asserts of every interval before the last one. -/
def badInterval : PyError := .assertionError "acoins from bad interval still exist"

theorem gathered_ne_badInterval {env : Environment} {s : BankConnection} (hs : s.NoOldCoins) (value : Int) :
    s.gathered env value ≠ .error badInterval := by
  intro h
  have hattribute : badInterval = .attributeError :=
    Wallet.gatherCoins_error (fun key _ hkey => noOldCoins_iff.mp hs key hkey) h
  cases hattribute

/-- As long as nothing expires, all sets before the last interval are empty, and `get_acoins` meets
its assertion. -/
theorem no_coins_of_bad_intervals (env : Environment) {as : List Action} {s : BankConnection}
    (h : Run (step env) (NothingExpires env) new as s) :
    (∀ key, key < s.currentACoinInterval - 1 → s.ACoins.coinsOf key = []) ∧
      ∀ value countAsSpent, Outcome (getAcoins env value countAsSpent) s (fun _ _ => True)
        fun e _ => e ≠ badInterval := by
  have hs : s.NoOldCoins := run_fresh h
  refine ⟨noOldCoins_iff.mp hs, fun value countAsSpent => ?_⟩
  refine (getAcoins_spec env (run_bounded h) value countAsSpent).mono (fun _ _ _ => trivial) ?_
  rintro e t ⟨-, hgathered⟩ rfl
  exact gathered_ne_badInterval hs value hgathered

/-- Logging in during interval 2 with one coin of it in the first coin file. -/
def loadingOne : List Action :=
  [.start, .login, .connectionMade 0, .stringReceived 0 (loginReply 1 2)
    (some (List.replicate Globals.ACOIN_BYTES 0 ++ packBE 4 2 ++ List.replicate Globals.ACOIN_KEY_BYTES 0)) none]

/-- The coin is spent in the interval after its own. -/
def spentInTime : List Action := loadingOne ++ [.onNewInfo 1 3 10 20, .getAcoins 1]

theorem no_coins_of_bad_intervals_spentInTime :
    ∃ s, Run (step exampleEnvironment) (NothingExpires exampleEnvironment) new spentInTime s ∧
      s.currentACoinInterval = 3 ∧ (∀ key, key < s.currentACoinInterval - 1 → s.ACoins.coinsOf key = []) ∧
      ∀ value countAsSpent, Outcome (getAcoins exampleEnvironment value countAsSpent) s (fun _ _ => True)
        fun e _ => e ≠ badInterval := by
  have hend : (exec (step exampleEnvironment) new spentInTime).any (fun s =>
      decide (s.currentACoinInterval = 3)) = true := by
    decide +kernel
  have hok : EachStep (step exampleEnvironment) (NothingExpires exampleEnvironment) new spentInTime := by
    decide +kernel
  obtain ⟨s, hrun, hinterval⟩ := exists_run hend hok
  exact ⟨s, hrun, of_decide_eq_true hinterval, no_coins_of_bad_intervals exampleEnvironment hrun⟩

/-- The next news from the bank comes in interval 4. -/
def overslept : List Action := loadingOne ++ [.onNewInfo 1 4 10 20]

/-- Only the coins of interval 1 are deleted, and from then on `get_acoins` always raises. -/
theorem overslept_keeps_old_coins :
    ∃ s, Run (step exampleEnvironment) (fun _ _ => True) new overslept s ∧
      (2 < s.currentACoinInterval - 1 ∧ s.ACoins.coinsOf 2 ≠ []) ∧
      Outcome (getAcoins exampleEnvironment 1 true) s (fun _ _ => False) fun e _ => e = badInterval := by
  have hend : (exec (step exampleEnvironment) new overslept).any (fun s =>
      decide ((2 < s.currentACoinInterval - 1 ∧ s.ACoins.coinsOf 2 ≠ []) ∧
        s.gathered exampleEnvironment 1 = .error badInterval)) = true := by
    decide +kernel
  obtain ⟨s, hrun, hdecide⟩ := exists_run hend (eachStep_true _ _)
  obtain ⟨hold, hgathered⟩ := of_decide_eq_true hdecide
  refine ⟨s, hrun, hold, ?_⟩
  unfold gathered at hgathered
  simp only [getAcoins, readClock, nextOrder, outcome_bind, outcome_get, outcome_modify, outcome_pure,
    outcome_attempt]
  rw [hgathered]

end BankConnection

end BitBlinder.Client
