import BitBlinder.Tor.MerchantTokens

/-!
# Payments that run out of coins

`start_bank_process` takes a token and then a coin for each of its payments.
When there is no coin it fails the payment's deferred and returns; the tokens
and the coins taken so far are not put back.
-/

namespace BitBlinder.Tor

set_option autoImplicit false
set_option maxRecDepth 2048

open Struct Effects

namespace ClientPaymentHandler

section
variable {β : Type}

/-- The coins that calls of `get_acoins` supply before one of the first `k` calls has none; `none`
when it does not come to that. A call that raises and a coin that cannot be written end the
payment before. -/
def coinsBeforeShortage (getAcoins : EStateM PyError β (List ACoin)) : Nat → β → Option Nat
  | 0, _ => none
  | k + 1, bank =>
    match getAcoins bank with
    | .ok [] _ => some 0
    | .ok (coin :: _) bank =>
      match coin.writeBinary with
      | .ok _ => (coinsBeforeShortage getAcoins k bank).map (· + 1)
      | .error _ => none
    | .error _ _ => none

/-- The coins run out in a payment of `number` tokens, while there are tokens left. -/
def CoinsRunOut (env : PaymentEnvironment β) (i number : Nat) (s : ClientPaymentHandler β) : Prop :=
  ∃ j ∈ coinsBeforeShortage env.getAcoins number s.bank, j < s.held i

instance (env : PaymentEnvironment β) (i number : Nat) (s : ClientPaymentHandler β) :
    Decidable (CoinsRunOut env i number s) :=
  inferInstanceAs (Decidable (∃ j ∈ _, _))

/-- What `start_bank_process` relies on: the payment waits for its deferred, and the ids of the
tokens were unpacked from 32 bits. -/
structure Prepared (s : ClientPaymentHandler β) (i paymentId : Nat) (stream : PaymentStream) : Prop where
  found : s.paymentStreams[i]? = some stream
  awaited : paymentId ∈ stream.paymentDeferreds
  tokens_lt : ∀ id ∈ stream.paymentTokens, id < 256 ^ 4

/-- The tokens of stream `i` and the coins counted as spent are the same. -/
def SameTokens (i : Nat) (s t : ClientPaymentHandler β) : Prop :=
  t.held i = s.held i ∧ t.coinsSpent = s.coinsSpent

instance (i : Nat) : IsPreorder (ClientPaymentHandler β) (SameTokens i) where
  refl _ := ⟨rfl, rfl⟩
  trans _ _ _ hst htu := ⟨htu.1.trans hst.1, htu.2.trans hst.2⟩

theorem held_modify {s : ClientPaymentHandler β} {i : Nat} (j : Nat) {f : PaymentStream → PaymentStream}
    (hf : ∀ stream, (f stream).paymentTokens = stream.paymentTokens) :
    held { s with paymentStreams := s.paymentStreams.modify j f } i = s.held i := by
  unfold held
  rw [List.getElem?_modify]
  cases s.paymentStreams[i]? with
  | none => rfl
  | some stream =>
    by_cases hji : j = i
    · simp [hji, hf]
    · simp [hji]

theorem firing_sameTokens (i : Nat) :
    Firing (SameTokens i : ClientPaymentHandler β → ClientPaymentHandler β → Prop) where
  fired _ _ := ⟨rfl, rfl⟩
  collect _ _ _ _ := ⟨rfl, rfl⟩
  cancel _ _ := ⟨rfl, rfl⟩
  credit _ _ _ := .modify fun _ => ⟨rfl, rfl⟩
  request _ _ := ⟨rfl, rfl⟩
  close := .modify fun _ => ⟨rfl, rfl⟩
  release _ _ := .modify fun _ => ⟨held_modify _ fun _ => rfl, rfl⟩

/-- What a deferred triggers does not raise. -/
theorem fire_returns (d : Nat × Nat) (result : Except PyError PaymentResult) (s : ClientPaymentHandler β) :
    Outcome (fire d result) s (fun _ _ => True) fun _ _ => False := by
  unfold fire
  rw [outcome_bind, outcome_modify, outcome_bind, outcome_get]
  split
  · trivial
  · rw [outcome_bind, outcome_modify, outcome_bind, outcome_get]
    split
    · trivial
    · exact ((firing_sameTokens 0).listFired _ _ _).mono (fun _ _ _ => trivial) fun _ _ h => h

theorem finishPayment_returns {s : ClientPaymentHandler β} {i paymentId : Nat} {stream : PaymentStream}
    (h : s.Prepared i paymentId stream) (result : Except PyError PaymentResult) :
    Outcome (finishPayment i paymentId result) s (fun _ t => SameTokens i s t) fun _ _ => False := by
  have hreturns : Outcome (finishPayment i paymentId result) s (fun _ _ => True) fun _ _ => False := by
    unfold finishPayment
    rw [outcome_bind, outcome_getStream h.found, outcome_ite, if_pos h.awaited, outcome_bind, setStream,
      outcome_modify]
    exact fire_returns _ _ _
  exact (hreturns.and ((firing_sameTokens i).finishPayment i paymentId result s)).mono
    (fun _ _ h => h.2) fun _ _ h => h.1

variable {s : ClientPaymentHandler β} {i paymentId : Nat} {stream : PaymentStream}
  (env : PaymentEnvironment β)

/-- `popitem` takes one token of the stream, and nothing else changes that the payment reads. -/
theorem popitem_takes (h : s.Prepared i paymentId stream) (htokens : 0 < s.held i) :
    Outcome (popitem env i) s
      (fun p t => p.1 < 256 ^ 4 ∧ (∃ rest, t.Prepared i paymentId rest) ∧ t.held i + 1 = s.held i ∧
        t.bank = s.bank ∧ t.coinsSpent = s.coinsSpent)
      fun _ _ => False := by
  have hheld : s.held i = stream.paymentTokens.entries.length := by
    rw [held, h.found]
  rw [hheld] at htokens ⊢
  unfold popitem
  rw [outcome_bind, outcome_getStream h.found, outcome_bind, outcome_get, outcome_bind, outcome_modify]
  dsimp only
  have hlt := Nat.mod_lt (env.popitem s.popped) htokens
  rw [List.getElem?_eq_getElem hlt]
  generalize hentry : stream.paymentTokens.entries[env.popitem s.popped % stream.paymentTokens.entries.length] = entry
  obtain ⟨requestId, token⟩ := entry
  have hmem : requestId ∈ stream.paymentTokens := by
    apply List.mem_keys_of_mem (s := ⟨requestId, token⟩)
    rw [← hentry]
    exact List.getElem_mem hlt
  dsimp only
  rw [outcome_bind, setStream, outcome_modify, outcome_pure]
  have hrest : (s.paymentStreams.modify i fun stream =>
      { stream with paymentTokens := stream.paymentTokens.erase requestId })[i]? =
        some { stream with paymentTokens := stream.paymentTokens.erase requestId } := by
    rw [List.getElem?_modify, h.found]
    simp
  refine ⟨h.tokens_lt requestId hmem, ⟨_, hrest, h.awaited, ?_⟩, ?_, rfl, rfl⟩
  · intro id hid
    exact h.tokens_lt id ((AList.mem_erase.mp hid).2)
  · unfold held
    rw [hrest]
    have hkeys := congrArg List.length (AList.keys_erase requestId stream.paymentTokens)
    rw [List.length_erase_of_mem hmem] at hkeys
    simp only [AList.keys, List.keys, List.length_map] at hkeys
    dsimp only
    omega

/-- A loop that finds no coin in its `j`-th pass has taken `j` coins and one token more. -/
theorem payLoop_short {k j : Nat} (msg bankMsg : Bytes) (h : s.Prepared i paymentId stream)
    (hshort : coinsBeforeShortage env.getAcoins k s.bank = some j) (hj : j < s.held i) :
    Outcome (payLoop env i paymentId k msg bankMsg) s
      (fun paid t => paid = none ∧ t.held i + (j + 1) = s.held i ∧ t.coinsSpent = s.coinsSpent + j)
      fun _ _ => False := by
  induction k generalizing s stream j msg bankMsg with
  | zero => cases hshort
  | succ k ih =>
    rw [payLoop, outcome_bind]
    refine (popitem_takes env h (by omega)).mono ?_ fun _ _ hfalse => hfalse
    rintro ⟨requestId, token⟩ t ⟨hid, ⟨rest, ht⟩, hheld, hbank, hspent⟩
    rw [outcome_bind, outcome_getAcoins, hbank]
    unfold coinsBeforeShortage at hshort
    cases hcoins : env.getAcoins s.bank with
    | error e bank =>
      rw [hcoins] at hshort
      cases hshort
    | ok coins bank =>
      rw [hcoins] at hshort
      have hbank : Prepared { t with bank } i paymentId rest := ⟨ht.found, ht.awaited, ht.tokens_lt⟩
      cases coins with
      | nil =>
        cases hshort
        dsimp only
        rw [outcome_bind]
        refine (finishPayment_returns hbank _).mono ?_ fun _ _ hfalse => hfalse
        intro _ u hu
        rw [outcome_pure]
        have hheldu : u.held i = t.held i := hu.1
        have hspentu : u.coinsSpent = t.coinsSpent := hu.2
        exact ⟨rfl, by omega, by omega⟩
      | cons coin coins =>
        dsimp only at hshort ⊢
        cases hwrite : coin.writeBinary with
        | error e =>
          rw [hwrite] at hshort
          cases hshort
        | ok coinBytes =>
          rw [hwrite] at hshort
          obtain ⟨j, hrest, rfl⟩ := Option.map_eq_some_iff.mp hshort
          obtain ⟨idBytes, hidBytes⟩ := writeLong_of_lt hid
          have htype : Basic.writeByte COIN_TYPE_A = .ok [1] := by decide
          rw [outcome_bind, outcome_modify, outcome_bind, outcome_attempt]
          dsimp only
          rw [outcome_bind, outcome_attempt, htype]
          dsimp only
          rw [outcome_bind, outcome_attempt, hidBytes]
          dsimp only
          rw [outcome_bind, output, outcome_modify]
          have hnext : Prepared { t with
              bank
              coinsSpent := t.coinsSpent + 1
              history := t.history ++ [.used i requestId] } i paymentId rest :=
            ⟨ht.found, ht.awaited, ht.tokens_lt⟩
          have hleft : j < t.held i := by omega
          refine (ih (msg ++ [1] ++ idBytes) (bankMsg ++ coinBytes ++ token) hnext hrest hleft).mono ?_
            fun _ _ hfalse => hfalse
          rintro paid u ⟨hnone, hheldu, hspentu⟩
          have hheldu : u.held i + (j + 1) = t.held i := hheldu
          have hspentu : u.coinsSpent = t.coinsSpent + 1 + j := hspentu
          exact ⟨hnone, by omega, by omega⟩

theorem startBankProcess_short {readTokens writeTokens j : Nat} {header : Bytes} (h : s.Prepared i paymentId stream)
    (hheader : paymentHeader readTokens writeTokens paymentId = .ok header)
    (hshort : coinsBeforeShortage env.getAcoins (numPayments readTokens writeTokens) s.bank = some j)
    (hj : j < s.held i) :
    Outcome (startBankProcess env i readTokens writeTokens paymentId) s
      (fun _ t => t.held i + (j + 1) = s.held i ∧ t.coinsSpent = s.coinsSpent + j)
      fun _ _ => False := by
  obtain ⟨number, hnumber⟩ := writeByte_of_paymentHeader hheader
  unfold startBankProcess
  rw [outcome_bind, outcome_get, outcome_bind, output, outcome_modify, outcome_bind, outcome_attempt, hheader]
  dsimp only
  rw [outcome_bind, outcome_attempt, hnumber]
  dsimp only
  rw [outcome_bind]
  have hstarted : Prepared { s with history := s.history ++
      [.started i paymentId (numPayments readTokens writeTokens) (s.held i)] } i paymentId stream :=
    ⟨h.found, h.awaited, h.tokens_lt⟩
  refine (payLoop_short env header number hstarted hshort hj).mono ?_ fun _ _ hfalse => hfalse
  rintro paid t ⟨rfl, hheld, hspent⟩
  exact ⟨hheld, hspent⟩

end

/-! ### Payments out of the wallet -/

/-- The wallet, the tokens of stream `i` and the coins counted as spent are what they were, and
the payment's deferred is the only one that got a result. -/
structure OnlyFails (i paymentId : Nat) (s t : ClientPaymentHandler Client.BankConnection) : Prop where
  wallet : t.bank.ACoins = s.bank.ACoins
  tokens : (t.paymentStreams[i]?).map PaymentStream.paymentTokens =
    (s.paymentStreams[i]?).map PaymentStream.paymentTokens
  spent : t.coinsSpent = s.coinsSpent
  failed : ∃ result, t.fired = s.fired ++ [((i, paymentId), result)]

/-- A payment for which `get_acoins` has not all the coins changes nothing when it returns, but
that it fails. -/
def AtomicOnFailure (env : PaymentEnvironment Client.BankConnection) (i readTokens writeTokens paymentId : Nat)
    (s : ClientPaymentHandler Client.BankConnection) : Prop :=
  CoinsRunOut env i (numPayments readTokens writeTokens) s →
    Outcome (startBankProcess env i readTokens writeTokens paymentId) s
      (fun _ t => OnlyFails i paymentId s t) fun _ _ => True

theorem not_onlyFails {i paymentId : Nat} {s t : ClientPaymentHandler Client.BankConnection}
    (h : t.held i < s.held i) : ¬OnlyFails i paymentId s t := by
  intro hfails
  have htokens := hfails.tokens
  unfold held at h
  cases hs : s.paymentStreams[i]? with
  | none => simp [hs] at h
  | some stream =>
    cases ht : t.paymentStreams[i]? with
    | none => simp [hs, ht] at htokens
    | some stream' =>
      rw [hs, ht, Option.map_some, Option.map_some, Option.some.injEq] at htokens
      simp only [hs, ht, htokens] at h
      omega

theorem not_atomicOnFailure {env : PaymentEnvironment Client.BankConnection}
    {s : ClientPaymentHandler Client.BankConnection} {i readTokens writeTokens paymentId : Nat}
    {stream : PaymentStream} {header : Bytes} (h : s.Prepared i paymentId stream)
    (hheader : paymentHeader readTokens writeTokens paymentId = .ok header)
    (hout : CoinsRunOut env i (numPayments readTokens writeTokens) s) :
    ¬AtomicOnFailure env i readTokens writeTokens paymentId s := by
  intro hatomic
  obtain ⟨j, hshort, hj⟩ := hout
  have hlost := startBankProcess_short env h hheader hshort hj
  have hboth := (hatomic ⟨j, hshort, hj⟩).and hlost
  have hfalse : Outcome (startBankProcess env i readTokens writeTokens paymentId) s
      (fun _ _ => False) fun _ _ => False := by
    refine hboth.mono ?_ fun _ _ h => h.2
    rintro _ t ⟨hfails, hheld, -⟩
    exact not_onlyFails (by omega) hfails
  exact (outcome_finish (I := fun _ => False)).mp hfalse

/-- `start_bank_process` is atomic on failure only in that it does not fail: whenever the coins
run out, tokens are gone. -/
theorem start_bank_process_atomic_on_failure (env : PaymentEnvironment Client.BankConnection)
    {s : ClientPaymentHandler Client.BankConnection} {i readTokens writeTokens paymentId : Nat}
    {stream : PaymentStream} {header : Bytes} (h : s.Prepared i paymentId stream)
    (hheader : paymentHeader readTokens writeTokens paymentId = .ok header) :
    AtomicOnFailure env i readTokens writeTokens paymentId s ↔
      ¬CoinsRunOut env i (numPayments readTokens writeTokens) s := by
  constructor
  · intro hatomic hout
    exact not_atomicOnFailure h hheader hout hatomic
  · intro hnot hout
    exact absurd hout hnot

/-- The state in which `send_payment` starts its first payment: two tokens, and a wallet of one
coin. -/
def exampleTwoTokens : ClientPaymentHandler Client.BankConnection :=
  ((exec (streamStep exampleEnvironment) (new exampleEnvironment exampleBank [exampleRelay])
    [.setupReply 0 1 (exampleSupply [0, 1])]).getD (new exampleEnvironment exampleBank [])).registered 0 0

theorem exampleTwoTokens_prepared : ∃ stream, exampleTwoTokens.Prepared 0 0 stream := by
  have hstream : (exampleTwoTokens.paymentStreams[0]?).any (fun stream =>
      decide (0 ∈ stream.paymentDeferreds ∧ ∀ id ∈ stream.paymentTokens.keys, id < 256 ^ 4)) = true := by
    decide
  obtain ⟨stream, hfound, hdecide⟩ := (Option.any_eq_true _ _).mp hstream
  obtain ⟨hawaited, hlt⟩ := of_decide_eq_true hdecide
  exact ⟨stream, hfound, hawaited, fun id hid => hlt id (AList.mem_keys.mp hid)⟩

/-- What `send_payment` checks, and amounts and ids of 32 bits, make a header. -/
theorem paymentHeader_of_lt (readTokens writeTokens paymentId : Nat) (hreads : readTokens < 256 ^ 4)
    (hwrites : writeTokens < 256 ^ 4) (hid : paymentId < 256 ^ 4)
    (hnumber : numPayments readTokens writeTokens ≤ MAX_MERCHANT_TOKENS) :
    ∃ header, paymentHeader readTokens writeTokens paymentId = .ok header := by
  have hint : ∀ {x : Nat}, x < 256 ^ 4 → ∃ bs, Basic.writeInt x = .ok bs := by
    intro x hx
    have hpack : Fmt.packUInt 4 x = some (packBE 4 x) := Fmt.packUInt_eq_some_iff.mpr ⟨hx, rfl⟩
    simp [Basic.writeInt, Basic.writeField, Basic.structPack, Struct.pack, Fmt.pack, hpack]
  have hbyte : ∀ {x : Nat}, x ≤ MAX_MERCHANT_TOKENS → ∃ bs, Basic.writeByte x = .ok bs := by
    intro x hx
    unfold MAX_MERCHANT_TOKENS at hx
    have hpack : Fmt.packUInt 1 x = some (packBE 1 x) := Fmt.packUInt_eq_some_iff.mpr ⟨by omega, rfl⟩
    simp [Basic.writeByte, Basic.writeField, Basic.structPack, Struct.pack, Fmt.pack, hpack]
  obtain ⟨version, hversion⟩ := hbyte (x := PAR_VERSION) (by decide)
  obtain ⟨reads, hreads⟩ := hint hreads
  obtain ⟨writes, hwrites⟩ := hint hwrites
  obtain ⟨id, hid⟩ := writeLong_of_lt hid
  obtain ⟨number, hnumber⟩ := hbyte hnumber
  refine ⟨version ++ reads ++ writes ++ id ++ number, ?_⟩
  unfold paymentHeader
  rw [hversion, hreads, hwrites, hid, hnumber]
  rfl

theorem start_bank_process_atomic_on_failure_one :
    AtomicOnFailure exampleEnvironment 0 Globals.CELLS_PER_PAYMENT 0 0 exampleTwoTokens := by
  obtain ⟨stream, hprepared⟩ := exampleTwoTokens_prepared
  obtain ⟨header, hheader⟩ := paymentHeader_of_lt Globals.CELLS_PER_PAYMENT 0 0 (by decide) (by decide) (by decide)
    (by decide)
  rw [start_bank_process_atomic_on_failure exampleEnvironment hprepared hheader]
  decide

/-- A payment for two of which only one can be paid: both tokens and the coin are gone. -/
theorem failed_payment_loses_coin :
    exampleTwoTokens.held 0 = 2 ∧ exampleTwoTokens.bank.ACoins.coins.length = 1 ∧
    (finish (startBankProcess exampleEnvironment 0 (2 * Globals.CELLS_PER_PAYMENT) 0 0) exampleTwoTokens).held 0 = 0 ∧
    (finish (startBankProcess exampleEnvironment 0 (2 * Globals.CELLS_PER_PAYMENT) 0 0)
      exampleTwoTokens).bank.ACoins.coins = [] ∧
    ¬AtomicOnFailure exampleEnvironment 0 (2 * Globals.CELLS_PER_PAYMENT) 0 0 exampleTwoTokens := by
  refine ⟨by decide, by decide, by decide, by decide, ?_⟩
  obtain ⟨stream, hprepared⟩ := exampleTwoTokens_prepared
  obtain ⟨header, hheader⟩ := paymentHeader_of_lt (2 * Globals.CELLS_PER_PAYMENT) 0 0 (by decide) (by decide)
    (by decide) (by decide)
  have hout : CoinsRunOut exampleEnvironment 0 (numPayments (2 * Globals.CELLS_PER_PAYMENT) 0) exampleTwoTokens := by
    decide
  exact not_atomicOnFailure hprepared hheader hout

end ClientPaymentHandler

end BitBlinder.Tor
