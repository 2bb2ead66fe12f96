import Mathlib.Data.Set.Card
import BitBlinder.Batch
import BitBlinder.Bank.DoubleSpend
import BitBlinder.Bank.Withdrawals

/-!
# Payments and deposits as batches of coins

A message of the bank is a batch whose items are its coins: the loops of `Payment` and
`Deposit` record a coin before they look at the next one, and a payment records it before
it signs the token. What a loop leaves behind is what the batch admits in the state before
the message.
-/

namespace BitBlinder.Bank

set_option autoImplicit false

open Struct Batch

/-- A coin is known to the store by its interval and its hash. -/
abbrev SpentKey := Int × Digest

section Items

variable (cfg : Config)

def spentKey (coin : ACoin) : SpentKey := (coin.interval, coin.store cfg.md5)

/-- The set in which `deposit_acoin` looks for a coin. -/
def spentSet (s : Server) (key : SpentKey) : PyExcept (List Digest) :=
  match getCorrectSet cfg key.2.first with
  | .error e => .error e
  | .ok set =>
    match s.acoins.lookup key.1 with
    | none => .error .keyError
    | some sets =>
      match sets[set]? with
      | none => .error .indexError
      | some hashes => .ok hashes

def spent (s : Server) (key : SpentKey) : Bool :=
  match spentSet cfg s key with
  | .error _ => false
  | .ok hashes => hashes.contains key.2

/-- A coin of a message. It is malformed where `deposit_acoin` raises; `answerable` tells whether the
bytes after the coin let the handler answer it. -/
def coinItem (s : Server) (current : Int) (answerable : Bytes → Bool) (blob : Bytes) : Item SpentKey :=
  match ACoin.readBinary blob with
  | .error _ => .malformed
  | .ok (coin, rest) =>
    match coin.isValid cfg.acoinKey.toPublicKey ACoin.isFresh current with
    | .error _ => .malformed
    | .ok false => .refused
    | .ok true =>
      match spentSet cfg s (spentKey cfg coin) with
      | .error _ => .malformed
      | .ok _ => .presents (spentKey cfg coin) (answerable rest)

/-- The next `k` coins, `stride` bytes apart. -/
def coinItems (s : Server) (current : Int) (answerable : Bytes → Bool) (stride : Nat) : Nat → Bytes → List (Item SpentKey)
  | 0, _ => []
  | k + 1, blob => coinItem cfg s current answerable blob :: coinItems s current answerable stride k (blob.drop stride)

def COIN_BYTES : Nat := calcsize ACoin.MESSAGE_FORMAT

def PAYMENT_BYTES : Nat := COIN_BYTES + Globals.ACOIN_KEY_BYTES

/-- Raw RSA takes the token. -/
def signs (rest : Bytes) : Bool :=
  match cfg.acoinKey.decrypt (rest.take Globals.ACOIN_KEY_BYTES) with
  | .error _ => false
  | .ok _ => true

/-- The coins of a message to `Payment`. -/
def paymentItems (s : Server) (msg : Bytes) : List (Item SpentKey) :=
  match s.current, Basic.readByte msg with
  | some current, .ok (numPayments, msg) => coinItems cfg s current.id (signs cfg) PAYMENT_BYTES numPayments msg
  | _, _ => []

/-- The coins of a message to `Deposit`. -/
def depositItems (s : Server) (blob : Bytes) : List (Item SpentKey) :=
  match s.current, Basic.readShort blob with
  | some current, .ok (number, blob) => coinItems cfg s current.id (fun _ => true) COIN_BYTES number blob
  | _, _ => []

end Items

variable {cfg : Config} {s t u : Server} {current : Int} {answerable : Bytes → Bool} {blob : Bytes} {key : SpentKey}
  {keys : List SpentKey}

/-- The same sets are there, whatever they hold. -/
def SameSets (cfg : Config) (s t : Server) : Prop :=
  ∀ key, (∃ hashes, spentSet cfg t key = .ok hashes) ↔ ∃ hashes, spentSet cfg s key = .ok hashes

theorem coinItem_congr (h : SameSets cfg s t) :
    coinItem cfg t current answerable blob = coinItem cfg s current answerable blob := by
  unfold coinItem
  split
  · rfl
  · rename_i coin rest _
    split
    · rfl
    · rfl
    · have hkey := h (spentKey cfg coin)
      cases hs : spentSet cfg s (spentKey cfg coin) with
      | error e =>
        cases ht : spentSet cfg t (spentKey cfg coin) with
        | error e' => rfl
        | ok hashes =>
          obtain ⟨hashes', h'⟩ := hkey.mp ⟨hashes, ht⟩
          cases hs.symm.trans h'
      | ok hashes =>
        obtain ⟨hashes', h'⟩ := hkey.mpr ⟨hashes, hs⟩
        rw [h']

theorem coinItems_congr (h : SameSets cfg s t) {stride : Nat} (k : Nat) (blob : Bytes) :
    coinItems cfg t current answerable stride k blob = coinItems cfg s current answerable stride k blob := by
  induction k generalizing blob with
  | zero => rfl
  | succ k ih => rw [coinItems, coinItems, coinItem_congr h, ih]

/-! ### One coin -/

theorem readBinary_rest {coin : ACoin} {rest : Bytes} (h : ACoin.readBinary blob = .ok (coin, rest)) :
    rest = blob.drop COIN_BYTES := by
  obtain ⟨⟨vals, rest'⟩, hread, heq⟩ := PyExcept.bind_eq_ok h
  cases heq
  exact (Basic.readMessage_of_ok hread).2.2

/-- The number of the set of a coin. -/
def setOf (cfg : Config) (store : Digest) : Nat :=
  match getCorrectSet cfg store.first with
  | .error _ => 0
  | .ok set => set

/-- The store with a new coin, whose set held `hashes`. -/
def Server.enter (cfg : Config) (s : Server) (coin : ACoin) (hashes : List Digest) : Server :=
  { s with
    acoins := s.acoins.insert coin.interval
      (((s.acoins.lookup coin.interval).getD []).set (setOf cfg (coin.store cfg.md5)) (coin.store cfg.md5 :: hashes))
    accepted := s.accepted ++ [coin] }

theorem spentSet_eq_ok {hashes : List Digest} : spentSet cfg s key = .ok hashes ↔
    ∃ set sets, getCorrectSet cfg key.2.first = .ok set ∧ s.acoins.lookup key.1 = some sets ∧ sets[set]? = some hashes := by
  unfold spentSet
  cases getCorrectSet cfg key.2.first with
  | error e => simp
  | ok set =>
    cases s.acoins.lookup key.1 with
    | none => simp
    | some sets => cases hsets : sets[set]? <;> simp [hsets]

theorem spentSet_coin {coin : ACoin} {hashes : List Digest} (h : spentSet cfg s (spentKey cfg coin) = .ok hashes) :
    ∃ set sets, getCorrectSet cfg (coin.store cfg.md5).first = .ok set ∧ setOf cfg (coin.store cfg.md5) = set ∧
      s.acoins.lookup coin.interval = some sets ∧ sets[set]? = some hashes := by
  rw [spentSet_eq_ok] at h
  obtain ⟨set, sets, hset, hsets, hhashes⟩ := h
  have hstore : getCorrectSet cfg (coin.store cfg.md5).first = .ok set := hset
  exact ⟨set, sets, hstore, by rw [setOf, hstore], hsets, hhashes⟩

theorem depositAcoin_eq : depositAcoin cfg s blob current =
    match ACoin.readBinary blob with
    | .error e => (s, .error e)
    | .ok (coin, rest) =>
      match coin.isValid cfg.acoinKey.toPublicKey ACoin.isFresh current with
      | .error e => (s, .error e)
      | .ok false => (s, .ok (.invalid, coin, rest))
      | .ok true =>
        match spentSet cfg s (spentKey cfg coin) with
        | .error e => (s, .error e)
        | .ok hashes =>
          if hashes.contains (coin.store cfg.md5) then (s, .ok (.spent, coin, rest))
          else (s.enter cfg coin hashes, .ok (.accepted, coin, rest)) := by
  unfold depositAcoin
  cases ACoin.readBinary blob with
  | error e => rfl
  | ok read =>
    obtain ⟨coin, rest⟩ := read
    dsimp only
    cases coin.isValid cfg.acoinKey.toPublicKey ACoin.isFresh current with
    | error e => rfl
    | ok valid =>
      cases valid with
      | false => rfl
      | true =>
        unfold spentSet spentKey Server.enter setOf
        dsimp only
        cases getCorrectSet cfg (coin.store cfg.md5).first with
        | error e => rfl
        | ok set =>
          cases s.acoins.lookup coin.interval with
          | none => rfl
          | some sets =>
            dsimp only
            cases sets[set]? with
            | none => rfl
            | some hashes => simp only [List.contains_iff_mem, Option.getD_some]

/-- What depositing a coin does, by the item that it is in its batch. -/
theorem deposit_spec (cfg : Config) (s : Server) (current : Int) (answerable : Bytes → Bool) (blob : Bytes) :
    match coinItem cfg s current answerable blob with
    | .malformed => ∃ e, depositAcoin cfg s blob current = (s, .error e)
    | .refused => ∃ coin, ACoin.readBinary blob = .ok (coin, blob.drop COIN_BYTES) ∧
        depositAcoin cfg s blob current = (s, .ok (.invalid, coin, blob.drop COIN_BYTES))
    | .presents key answer => ∃ coin hashes, ACoin.readBinary blob = .ok (coin, blob.drop COIN_BYTES) ∧
        spentKey cfg coin = key ∧ answerable (blob.drop COIN_BYTES) = answer ∧ spentSet cfg s key = .ok hashes ∧
        depositAcoin cfg s blob current = if spent cfg s key then (s, .ok (.spent, coin, blob.drop COIN_BYTES))
          else (s.enter cfg coin hashes, .ok (.accepted, coin, blob.drop COIN_BYTES)) := by
  rw [depositAcoin_eq]
  unfold coinItem
  cases hread : ACoin.readBinary blob with
  | error e => exact ⟨e, rfl⟩
  | ok read =>
    obtain ⟨coin, rest⟩ := read
    obtain rfl := readBinary_rest hread
    dsimp only
    cases coin.isValid cfg.acoinKey.toPublicKey ACoin.isFresh current with
    | error e => exact ⟨e, rfl⟩
    | ok valid =>
      cases valid with
      | false => exact ⟨coin, rfl, rfl⟩
      | true =>
        dsimp only
        cases hset : spentSet cfg s (spentKey cfg coin) with
        | error e => exact ⟨e, rfl⟩
        | ok hashes =>
          refine ⟨coin, hashes, rfl, rfl, rfl, hset, ?_⟩
          simp only [spent, hset]
          rfl

theorem deposit_malformed (h : coinItem cfg s current answerable blob = .malformed) :
    ∃ e, depositAcoin cfg s blob current = (s, .error e) := by
  have hspec := deposit_spec cfg s current answerable blob
  rwa [h] at hspec

theorem deposit_refused (h : coinItem cfg s current answerable blob = .refused) :
    ∃ coin, ACoin.readBinary blob = .ok (coin, blob.drop COIN_BYTES) ∧
      depositAcoin cfg s blob current = (s, .ok (.invalid, coin, blob.drop COIN_BYTES)) := by
  have hspec := deposit_spec cfg s current answerable blob
  rwa [h] at hspec

theorem deposit_presents {answer : Bool} (h : coinItem cfg s current answerable blob = .presents key answer) :
    ∃ coin hashes, ACoin.readBinary blob = .ok (coin, blob.drop COIN_BYTES) ∧ spentKey cfg coin = key ∧
      answerable (blob.drop COIN_BYTES) = answer ∧ spentSet cfg s key = .ok hashes ∧
      depositAcoin cfg s blob current = if spent cfg s key then (s, .ok (.spent, coin, blob.drop COIN_BYTES))
        else (s.enter cfg coin hashes, .ok (.accepted, coin, blob.drop COIN_BYTES)) := by
  have hspec := deposit_spec cfg s current answerable blob
  rwa [h] at hspec

/-! ### What a coin changes -/

/-- The sets of the store that has a new coin. -/
theorem spentSet_enter {coin : ACoin} {hashes : List Digest} (h : spentSet cfg s (spentKey cfg coin) = .ok hashes)
    (key : SpentKey) : spentSet cfg (s.enter cfg coin hashes) key =
      if key.1 = coin.interval ∧ getCorrectSet cfg key.2.first = .ok (setOf cfg (coin.store cfg.md5)) then
        .ok (coin.store cfg.md5 :: hashes)
      else
        spentSet cfg s key := by
  obtain ⟨set, sets, -, hset, hsets, hhashes⟩ := spentSet_coin h
  have hlt := (List.getElem?_eq_some_iff.mp hhashes).1
  have hlookup : (s.enter cfg coin hashes).acoins.lookup key.1 =
      if key.1 = coin.interval then some (sets.set set (coin.store cfg.md5 :: hashes)) else s.acoins.lookup key.1 := by
    unfold Server.enter
    dsimp only
    split
    · rename_i heq
      rw [heq, AList.lookup_insert, hsets, Option.getD_some, hset]
    · rename_i hne
      exact AList.lookup_insert_ne hne
  rw [hset]
  unfold spentSet
  rw [hlookup]
  by_cases hinterval : key.1 = coin.interval
  · cases hkey : getCorrectSet cfg key.2.first with
    | error e => simp
    | ok set' =>
      by_cases heq : set' = set
      · simp [hinterval, heq, hlt]
      · have hsame : s.acoins.lookup key.1 = some sets := hinterval ▸ hsets
        simp [hinterval, heq, hsame, List.getElem?_set_ne (Ne.symm heq)]
  · simp [hinterval]

/-- What the set of a coin held. -/
theorem spentSet_of_sameSet {coin : ACoin} {hashes : List Digest} (h : spentSet cfg s (spentKey cfg coin) = .ok hashes)
    (hkey : key.1 = coin.interval ∧ getCorrectSet cfg key.2.first = .ok (setOf cfg (coin.store cfg.md5))) :
    spentSet cfg s key = .ok hashes := by
  obtain ⟨set, sets, -, hset, hsets, hhashes⟩ := spentSet_coin h
  rw [hset] at hkey
  rw [spentSet_eq_ok]
  exact ⟨set, sets, hkey.2, hkey.1 ▸ hsets, hhashes⟩

theorem sameSets_enter {coin : ACoin} {hashes : List Digest} (h : spentSet cfg s (spentKey cfg coin) = .ok hashes) :
    SameSets cfg s (s.enter cfg coin hashes) := by
  intro key
  rw [spentSet_enter h]
  split
  · rename_i hkey
    exact iff_of_true ⟨_, rfl⟩ ⟨hashes, spentSet_of_sameSet h hkey⟩
  · rfl

theorem spent_enter {coin : ACoin} {hashes : List Digest} (h : spentSet cfg s (spentKey cfg coin) = .ok hashes) :
    spent cfg (s.enter cfg coin hashes) = record (spentKey cfg coin) (spent cfg s) := by
  funext key
  simp only [spent, record, spentSet_enter h]
  by_cases hkey : key.1 = coin.interval ∧ getCorrectSet cfg key.2.first = .ok (setOf cfg (coin.store cfg.md5))
  · rw [if_pos hkey, spentSet_of_sameSet h hkey]
    obtain ⟨interval, store⟩ := key
    obtain rfl : interval = coin.interval := hkey.1
    rw [Bool.eq_iff_iff]
    simp [spentKey]
  · have hne : key ≠ spentKey cfg coin := by
      rintro rfl
      obtain ⟨set, sets, hcorrect, hset, -⟩ := spentSet_coin h
      rw [hset] at hkey
      exact hkey ⟨rfl, hcorrect⟩
    simp [hkey, hne]

/-- The store `t` holds what `s` holds and the coins `keys`. -/
structure Added (cfg : Config) (s t : Server) (keys : List SpentKey) : Prop where
  spent : ∀ key, spent cfg t key = true ↔ key ∈ keys ∨ spent cfg s key = true
  same : keys = [] → t.acoins = s.acoins

theorem Added.refl (s : Server) : Added cfg s s [] :=
  ⟨fun key => by simp, fun _ => rfl⟩

theorem Added.enter {coin : ACoin} {hashes : List Digest} (h : spentSet cfg s (spentKey cfg coin) = .ok hashes)
    (ht : Added cfg (s.enter cfg coin hashes) t keys) : Added cfg s t (spentKey cfg coin :: keys) := by
  refine ⟨fun key => ?_, nofun⟩
  rw [ht.spent, spent_enter h, record_iff, List.mem_cons]
  exact or_left_comm.trans or_assoc.symm

theorem Added.newlySpent (h : Added cfg s t keys) (hnew : ∀ key ∈ keys, Bank.spent cfg s key = false) (key : SpentKey) :
    Bank.spent cfg t key = true ∧ Bank.spent cfg s key = false ↔ key ∈ keys := by
  rw [h.spent]
  constructor
  · rintro ⟨hkey | hspent, hold⟩
    · exact hkey
    · cases hold.symm.trans hspent
  · exact fun hkey => ⟨.inl hkey, hnew key hkey⟩

/-! ### The loops -/

/-- A loop leaves the coins that the batch admits, and raises exactly when the batch ends early. -/
theorem paymentLoop_processes (cfg : Config) (current : Int) (k : Nat) (s : Server) (msg reply : Bytes) :
    Added cfg s (paymentLoop cfg current k s msg reply).1
        (process (spent cfg s) (coinItems cfg s current (signs cfg) PAYMENT_BYTES k msg)).1 ∧
      ((∃ reply', (paymentLoop cfg current k s msg reply).2 = .ok reply') ↔
        (process (spent cfg s) (coinItems cfg s current (signs cfg) PAYMENT_BYTES k msg)).2 = true) := by
  induction k generalizing s msg reply with
  | zero => exact ⟨.refl s, iff_of_true ⟨reply, rfl⟩ rfl⟩
  | succ k ih =>
    have hdrop : (msg.drop COIN_BYTES).drop Globals.ACOIN_KEY_BYTES = msg.drop PAYMENT_BYTES := List.drop_drop
    rw [coinItems]
    cases hitem : coinItem cfg s current (signs cfg) msg with
    | malformed =>
      obtain ⟨e, he⟩ := deposit_malformed hitem
      simp only [paymentLoop, he, process]
      exact ⟨.refl s, by simp⟩
    | refused =>
      obtain ⟨coin, -, hcoin⟩ := deposit_refused hitem
      simp only [paymentLoop, hcoin, process, hdrop]
      exact ih s _ _
    | presents key answer =>
      obtain ⟨coin, hashes, -, rfl, hanswer, hset, hcoin⟩ := deposit_presents hitem
      cases hspent : spent cfg s (spentKey cfg coin) with
      | true =>
        rw [hspent, if_pos rfl] at hcoin
        simp only [paymentLoop, hcoin, process, hspent, hdrop]
        exact ih s _ _
      | false =>
        rw [hspent, if_neg Bool.false_ne_true] at hcoin
        have hnext := ih (s.enter cfg coin hashes) (msg.drop PAYMENT_BYTES)
        rw [coinItems_congr (sameSets_enter hset), spent_enter hset] at hnext
        simp only [paymentLoop, hcoin, process, hspent, hdrop]
        cases hdecrypt : cfg.acoinKey.decrypt ((msg.drop COIN_BYTES).take Globals.ACOIN_KEY_BYTES) with
        | error e =>
          have hrefused : answer = false := by rw [← hanswer, signs, hdecrypt]
          subst hrefused
          exact ⟨.enter hset (.refl _), by simp⟩
        | ok sig =>
          have hsigned : answer = true := by rw [← hanswer, signs, hdecrypt]
          subst hsigned
          exact ⟨.enter hset (hnext _).1, (hnext _).2⟩

/-- The same for the loop of `Deposit`, which also counts the coins that it adds. -/
theorem depositLoop_processes (cfg : Config) (current : Int) (k : Nat) (s : Server) (blob slip : Bytes) (total : Nat) :
    Added cfg s (depositLoop cfg current k s blob slip total).1
        (process (spent cfg s) (coinItems cfg s current (fun _ => true) COIN_BYTES k blob)).1 ∧
      ((∃ slip' total', (depositLoop cfg current k s blob slip total).2 = .ok (slip', total')) ↔
        (process (spent cfg s) (coinItems cfg s current (fun _ => true) COIN_BYTES k blob)).2 = true) ∧
      ∀ slip' total', (depositLoop cfg current k s blob slip total).2 = .ok (slip', total') →
        total' = total + (process (spent cfg s) (coinItems cfg s current (fun _ => true) COIN_BYTES k blob)).1.length := by
  induction k generalizing s blob slip total with
  | zero =>
    refine ⟨.refl s, iff_of_true ⟨slip, total, rfl⟩ rfl, fun slip' total' h => ?_⟩
    cases h
    rfl
  | succ k ih =>
    rw [coinItems]
    cases hitem : coinItem cfg s current (fun _ => true) blob with
    | malformed =>
      obtain ⟨e, he⟩ := deposit_malformed hitem
      simp only [depositLoop, he, process]
      exact ⟨.refl s, by simp, by simp⟩
    | refused =>
      obtain ⟨coin, -, hcoin⟩ := deposit_refused hitem
      simp only [depositLoop, hcoin, process]
      exact ih s _ _ _
    | presents key answer =>
      obtain ⟨coin, hashes, -, rfl, rfl, hset, hcoin⟩ := deposit_presents hitem
      cases hspent : spent cfg s (spentKey cfg coin) with
      | true =>
        rw [hspent, if_pos rfl] at hcoin
        simp only [depositLoop, hcoin, process, hspent]
        exact ih s _ _ _
      | false =>
        rw [hspent, if_neg Bool.false_ne_true] at hcoin
        have hnext := ih (s.enter cfg coin hashes) (blob.drop COIN_BYTES)
        rw [coinItems_congr (sameSets_enter hset), spent_enter hset] at hnext
        simp only [depositLoop, hcoin, process, hspent]
        refine ⟨.enter hset (hnext _ _).1, (hnext _ _).2.1, fun slip' total' h => ?_⟩
        rw [(hnext _ _).2.2 slip' total' h]
        simp only [if_true, Bool.false_eq_true, if_false, List.length_cons, ACoin.VALUE]
        omega

/-! ### Payments -/

/-- The parts of a reply of `Payment`: a status for each coin, with a signature after `'0'`. -/
def replySlots : Nat → Bytes → List Bytes
  | 0, _ => []
  | k + 1, reply =>
    let size := if reply.head? = some Status.accepted.code then 1 + Globals.ACOIN_KEY_BYTES else 1
    reply.take size :: replySlots k (reply.drop size)

/-- The part of a reply for an accepted coin whose token has the signature `sig`. -/
def acceptedSlot (sig : Bytes) : Bytes := Status.accepted.code :: Fmt.packStr Globals.ACOIN_KEY_BYTES sig

/-- A reply to `k` coins holds `'0'` and the signature of the accompanying token at a position of this coin. -/
def Answered (cfg : Config) (k : Nat) (msg reply : Bytes) (key : SpentKey) : Prop :=
  ∃ i coin rest sig, ACoin.readBinary (msg.drop (i * PAYMENT_BYTES)) = .ok (coin, rest) ∧ spentKey cfg coin = key ∧
    cfg.acoinKey.decrypt (rest.take Globals.ACOIN_KEY_BYTES) = .ok sig ∧ (replySlots k reply)[i]? = some (acceptedSlot sig)

theorem replySlots_accepted {k : Nat} {sig rest : Bytes} :
    replySlots (k + 1) (acceptedSlot sig ++ rest) = acceptedSlot sig :: replySlots k rest := by
  have hlen : (acceptedSlot sig).length = 1 + Globals.ACOIN_KEY_BYTES := by
    rw [acceptedSlot, List.length_cons, Fmt.packStr_length, Nat.add_comm]
  have hhead : (acceptedSlot sig ++ rest).head? = some Status.accepted.code := rfl
  rw [replySlots, if_pos hhead]
  rw [← hlen, List.take_left, List.drop_left]

theorem replySlots_refused {k : Nat} {result : Status} {rest : Bytes} (h : result ≠ .accepted) :
    replySlots (k + 1) ([result.code] ++ rest) = [result.code] :: replySlots k rest := by
  have hcode : ([result.code] ++ rest).head? ≠ some Status.accepted.code := by
    cases result with
    | accepted => exact absurd rfl h
    | invalid => simp [Status.code]
    | spent => simp [Status.code]
  rw [replySlots, if_neg hcode]
  rfl

/-- Answers in a reply with one more part in front. -/
theorem answered_cons {k : Nat} {msg reply slot rest : Bytes} (h : replySlots (k + 1) reply = slot :: replySlots k rest) :
    Answered cfg (k + 1) msg reply key ↔
      (∃ coin rest sig, ACoin.readBinary msg = .ok (coin, rest) ∧ spentKey cfg coin = key ∧
        cfg.acoinKey.decrypt (rest.take Globals.ACOIN_KEY_BYTES) = .ok sig ∧ slot = acceptedSlot sig) ∨
      Answered cfg k (msg.drop PAYMENT_BYTES) rest key := by
  unfold Answered
  rw [h]
  have hdrop (i : Nat) : (msg.drop PAYMENT_BYTES).drop (i * PAYMENT_BYTES) = msg.drop ((i + 1) * PAYMENT_BYTES) := by
    rw [List.drop_drop, Nat.succ_mul, Nat.add_comm]
  constructor
  · rintro ⟨i, coin, rest, sig, hread, hkey, hsig, hslot⟩
    cases i with
    | zero =>
      rw [Nat.zero_mul] at hread
      exact .inl ⟨coin, rest, sig, hread, hkey, hsig, Option.some.inj hslot⟩
    | succ i =>
      rw [← hdrop] at hread
      exact .inr ⟨i, coin, rest, sig, hread, hkey, hsig, hslot⟩
  · rintro (⟨coin, rest, sig, hread, hkey, hsig, hslot⟩ | ⟨i, coin, rest, sig, hread, hkey, hsig, hslot⟩)
    · refine ⟨0, coin, rest, sig, ?_, hkey, hsig, congrArg some hslot⟩
      rw [Nat.zero_mul]
      exact hread
    · rw [hdrop] at hread
      exact ⟨i + 1, coin, rest, sig, hread, hkey, hsig, hslot⟩

/-- A part of the reply that answers no coin. -/
theorem answered_refused {k : Nat} {msg rest : Bytes} {result : Status} (h : result ≠ .accepted) :
    Answered cfg (k + 1) msg ([result.code] ++ rest) key ↔ Answered cfg k (msg.drop PAYMENT_BYTES) rest key := by
  rw [answered_cons (replySlots_refused h), or_iff_right]
  rintro ⟨coin, rest, sig, -, -, -, hslot⟩
  have hlen := congrArg List.length hslot
  simp [acceptedSlot, Globals.ACOIN_KEY_BYTES] at hlen

/-- The reply answers the coins that were added. -/
theorem paymentLoop_answers {k : Nat} {msg reply reply' : Bytes}
    (h : (paymentLoop cfg current k s msg reply).2 = .ok reply') :
    ∃ rest, reply' = reply ++ rest ∧ ∀ key, Answered cfg k msg rest key ↔
      key ∈ (process (spent cfg s) (coinItems cfg s current (signs cfg) PAYMENT_BYTES k msg)).1 := by
  induction k generalizing s msg reply with
  | zero =>
    cases h
    refine ⟨[], (List.append_nil _).symm, fun key => ?_⟩
    refine iff_of_false ?_ List.not_mem_nil
    rintro ⟨i, coin, rest, sig, -, -, -, hslot⟩
    cases hslot
  | succ k ih =>
    have hdrop : (msg.drop COIN_BYTES).drop Globals.ACOIN_KEY_BYTES = msg.drop PAYMENT_BYTES := List.drop_drop
    rw [coinItems]
    cases hitem : coinItem cfg s current (signs cfg) msg with
    | malformed =>
      obtain ⟨e, he⟩ := deposit_malformed hitem
      simp [paymentLoop, he] at h
    | refused =>
      obtain ⟨coin, -, hcoin⟩ := deposit_refused hitem
      simp only [paymentLoop, hcoin, hdrop, reduceCtorEq, if_false] at h
      obtain ⟨rest, rfl, hrest⟩ := ih h
      refine ⟨[Status.invalid.code] ++ rest, List.append_assoc _ _ _, fun key => ?_⟩
      rw [answered_refused (by decide), hrest, process]
    | presents key answer =>
      obtain ⟨coin, hashes, hread, rfl, hanswer, hset, hcoin⟩ := deposit_presents hitem
      cases hspent : spent cfg s (spentKey cfg coin) with
      | true =>
        rw [hspent, if_pos rfl] at hcoin
        simp only [paymentLoop, hcoin, hdrop, reduceCtorEq, if_false] at h
        obtain ⟨rest, rfl, hrest⟩ := ih h
        refine ⟨[Status.spent.code] ++ rest, List.append_assoc _ _ _, fun key => ?_⟩
        rw [answered_refused (by decide), hrest, process, if_pos hspent]
      | false =>
        rw [hspent, if_neg Bool.false_ne_true] at hcoin
        unfold signs at hanswer
        cases hsig : cfg.acoinKey.decrypt ((msg.drop COIN_BYTES).take Globals.ACOIN_KEY_BYTES) with
        | error e => simp [paymentLoop, hcoin, hsig] at h
        | ok sig =>
          rw [hsig] at hanswer
          subst hanswer
          simp only [paymentLoop, hcoin, hsig, hdrop, if_true] at h
          obtain ⟨rest, rfl, hrest⟩ := ih h
          rw [coinItems_congr (sameSets_enter hset), spent_enter hset] at hrest
          refine ⟨acceptedSlot sig ++ rest, by simp [acceptedSlot], fun key => ?_⟩
          rw [answered_cons replySlots_accepted, hrest, process, hspent, if_neg Bool.false_ne_true, if_pos rfl, List.mem_cons]
          refine or_congr_left ⟨?_, ?_⟩
          · rintro ⟨coin', rest', sig', hread', rfl, -, -⟩
            cases hread.symm.trans hread'
            rfl
          · rintro rfl
            exact ⟨coin, _, sig, hread, rfl, hsig, rfl⟩

/-- A coin is added to the spent sets exactly when the reply holds `'0'` and the signature of its token, and nothing
is added by a message that makes the handler raise. -/
structure PaymentAllOrNothing (cfg : Config) (s : Server) (msg : Bytes) : Prop where
  answered : ∀ key, (spent cfg (paymentOnMessage cfg s msg).1 key = true ∧ spent cfg s key = false) ↔
    ∃ numPayments coins reply, Basic.readByte msg = .ok (numPayments, coins) ∧
      (paymentOnMessage cfg s msg).2 = .ok reply ∧ Answered cfg numPayments coins reply key
  raised : ∀ e, (paymentOnMessage cfg s msg).2 = .error e → (paymentOnMessage cfg s msg).1.acoins = s.acoins

/-- A message that is refused before its first coin. -/
theorem PaymentAllOrNothing.of_error {s : Server} {msg : Bytes} {e : PyError} (h : paymentOnMessage cfg s msg = (s, .error e)) :
    PaymentAllOrNothing cfg s msg := by
  refine ⟨fun key => ?_, fun e' _ => by rw [h]⟩
  rw [h]
  refine iff_of_false ?_ ?_
  · rintro ⟨hspent, hnew⟩
    cases hspent.symm.trans hnew
  · rintro ⟨n, coins, reply, -, hreply, -⟩
    cases hreply

/-- A payment is all or nothing exactly when the batch of its coins is. -/
theorem payment_all_or_nothing (cfg : Config) (s : Server) (msg : Bytes) :
    PaymentAllOrNothing cfg s msg ↔ Whole (spent cfg s) (paymentItems cfg s msg) := by
  have hnil : Whole (spent cfg s) [] := fun i key hfresh => absurd hfresh not_fresh_nil
  unfold paymentItems
  cases hcurrent : s.current with
  | none =>
    exact iff_of_true (.of_error (e := .indexError) (by rw [paymentOnMessage, hcurrent])) hnil
  | some current =>
    cases hread : Basic.readByte msg with
    | error e => exact iff_of_true (.of_error (e := e) (by rw [paymentOnMessage, hcurrent]; simp only [hread])) hnil
    | ok read =>
      obtain ⟨n, coins⟩ := read
      dsimp only
      have hmessage : paymentOnMessage cfg s msg = paymentLoop cfg current.id n s coins [] := by
        rw [paymentOnMessage, hcurrent]
        simp only [hread]
      obtain ⟨hadded, hends⟩ := paymentLoop_processes cfg current.id n s coins []
      rw [← hmessage] at hadded hends
      have hnew (key : SpentKey) := hadded.newlySpent (fun k hk => not_seen_of_mem_process hk) key
      rw [whole_iff]
      constructor
      · intro h hearly
        refine List.eq_nil_iff_forall_not_mem.mpr fun key hkey => ?_
        obtain ⟨n', coins', reply, hread', hreply, -⟩ := (h.answered key).mp ((hnew key).mpr hkey)
        cases (hends.mp ⟨reply, hreply⟩).symm.trans hearly
      · intro h
        constructor
        · intro key
          rw [hnew]
          constructor
          · intro hkey
            have hlate : (process (spent cfg s) (coinItems cfg s current.id (signs cfg) PAYMENT_BYTES n coins)).2 = true := by
              refine Bool.of_not_eq_false fun hearly => ?_
              rw [h hearly] at hkey
              cases hkey
            obtain ⟨reply, hreply⟩ := hends.mpr hlate
            obtain ⟨rest, rfl, hrest⟩ := paymentLoop_answers (hmessage ▸ hreply)
            exact ⟨n, coins, _, hread, hreply, (hrest key).mpr hkey⟩
          · rintro ⟨n', coins', reply, hread', hreply, hanswered⟩
            cases hread.symm.trans hread'
            obtain ⟨rest, rfl, hrest⟩ := paymentLoop_answers (hmessage ▸ hreply)
            exact (hrest key).mp hanswered
        · intro e he
          refine hadded.same (h (Bool.eq_false_iff.mpr fun hlate => ?_))
          obtain ⟨reply, hreply⟩ := hends.mpr hlate
          cases he.symm.trans hreply

/-- A server that has learned the first interval. -/
def exampleServer : Server := (learnedCurrentAcoinInterval .example .initial [(1, 10), (2, 20)]).1

def unitKey : SpentKey := spentKey .example (.create 1 (List.replicate 32 0) (List.replicate 95 0 ++ [1]) 1)

/-- A coin whose token is a byte short is burnt, and there is no reply. -/
theorem payment_burnt_unanswered : ¬PaymentAllOrNothing .example exampleServer ([1] ++ unitCoin ++ List.replicate 95 0) := by
  intro h
  have hspent : spent .example (paymentOnMessage .example exampleServer ([1] ++ unitCoin ++ List.replicate 95 0)).1 unitKey =
      true := by decide +kernel
  have hnew : spent .example exampleServer unitKey = false := by decide +kernel
  have hraised : (paymentOnMessage .example exampleServer ([1] ++ unitCoin ++ List.replicate 95 0)).2 = .error .rsaError := by
    decide +kernel
  obtain ⟨n, coins, reply, -, hreply, -⟩ := (h.answered unitKey).mp ⟨hspent, hnew⟩
  cases hraised.symm.trans hreply

/-! ### Deposits -/

/-- `UPDATE Accounts SET Balance = Balance + credit WHERE Username = user`, which changes nothing when it fails. -/
def Accounts.credit (accounts : Accounts) (user : String) (credit : Nat) : Accounts :=
  (accounts.updateBalance user fun balance => balance + credit).getD accounts

/-- Among other handlers the statement does the same. -/
theorem accounts_addCredit (l : Ledger) (user : String) (credit : Nat) :
    (l.advanceDeposit (.addCredit user credit)).accounts = l.accounts.credit user credit := by
  simp only [Ledger.advanceDeposit, Accounts.credit]
  split
  · rename_i hfails
    rw [hfails, Option.getD_none]
  · rename_i accounts haccounts
    rw [haccounts]
    rfl

/-- `Deposit.on_message` up to the `UPDATE` of `update_account`; its callbacks change no account. -/
def depositOnMessage (cfg : Config) (s : Server) (accounts : Accounts) (user : String) (msg : Bytes) :
    Server × Accounts × PyExcept Unit :=
  match unpackAndVerify cfg s msg with
  | (s, .error e) => (s, accounts, .error e)
  | (s, .ok (_, _, credit)) => (s, if 0 < credit then accounts.credit user credit else accounts, .ok ())

/-- The user is credited with the number of coins that are newly in the spent sets, and a message that makes the
handler raise changes neither. -/
structure DepositAllOrNothing (cfg : Config) (s : Server) (accounts : Accounts) (user : String) (msg : Bytes) : Prop where
  credited : ((depositOnMessage cfg s accounts user msg).2.1.select user).sum = (accounts.select user).sum +
    {key | spent cfg (depositOnMessage cfg s accounts user msg).1 key = true ∧ spent cfg s key = false}.ncard
  raised : ∀ e, (depositOnMessage cfg s accounts user msg).2.2 = .error e →
    (depositOnMessage cfg s accounts user msg).1.acoins = s.acoins ∧
      (depositOnMessage cfg s accounts user msg).2.1 = accounts

/-- The account of the user takes a credit. -/
def Creditable (accounts : Accounts) (user : String) (credit : Nat) : Prop :=
  ∃ balance, accounts.select user = [balance] ∧ balance + credit < 2 ^ 31

theorem Added.ncard_newlySpent (h : Added cfg s t keys) (hnew : ∀ key ∈ keys, Bank.spent cfg s key = false)
    (hnodup : keys.Nodup) : {key | Bank.spent cfg t key = true ∧ Bank.spent cfg s key = false}.ncard = keys.length := by
  have hset : {key | Bank.spent cfg t key = true ∧ Bank.spent cfg s key = false} = (keys.toFinset : Set SpentKey) := by
    ext key
    rw [Set.mem_ofPred_eq, h.newlySpent hnew]
    simp
  rw [hset, Set.ncard_coe_finset, List.toFinset_card_of_nodup hnodup]

theorem Accounts.sum_credit (accounts : Accounts) (user : String) {credit : Nat} (hcredit : 0 < credit) :
    ((accounts.credit user credit).select user).sum = (accounts.select user).sum + credit ↔
      Creditable accounts user credit := by
  unfold Accounts.credit Accounts.updateBalance Creditable
  rcases accounts.select_eq_nil_or user with hnone | ⟨balance, hone⟩
  · rw [dif_pos (by simp [hnone]), Option.getD_some, Table.select_update, hnone]
    refine iff_of_false ?_ (by simp)
    simp
    omega
  · have hrange := Accounts.inRange_of_select (hone ▸ List.mem_singleton_self balance)
    by_cases hfits : balance + credit < 2 ^ 31
    · have hin : IntRange (balance + credit) := ⟨by have := hrange.1; omega, hfits⟩
      rw [dif_pos (by simpa [hone] using hin), Option.getD_some, Table.select_update, hone]
      exact iff_of_true (by simp) ⟨balance, rfl, hfits⟩
    · have hout : ¬∀ b ∈ accounts.select user, IntRange (b + credit) := fun h =>
        hfits (h balance (hone ▸ List.mem_singleton_self balance)).2
      rw [dif_neg hout, Option.getD_none, hone]
      refine iff_of_false ?_ ?_
      · simp
        omega
      · rintro ⟨balance', heq, hlt⟩
        cases heq
        exact hfits hlt

/-- A message that adds no coin and credits nothing. -/
theorem DepositAllOrNothing.of_unchanged {accounts : Accounts} {user : String} {msg : Bytes}
    (h : (depositOnMessage cfg s accounts user msg).1 = s) (haccounts : (depositOnMessage cfg s accounts user msg).2.1 = accounts) :
    DepositAllOrNothing cfg s accounts user msg := by
  refine ⟨?_, fun e _ => ⟨by rw [h], haccounts⟩⟩
  have hnone : ∀ key ∈ ([] : List SpentKey), spent cfg s key = false := fun key hkey => absurd hkey List.not_mem_nil
  rw [h, haccounts, (Added.refl s).ncard_newlySpent hnone List.nodup_nil]
  simp

/-- The loop of a deposit also stands for a message that announces no coins. -/
theorem unpackAndVerify_eq (cfg : Config) {interval : AcoinInterval} {msg coins : Bytes} {n : Nat} (hcurrent : s.current = some interval)
    (hread : Basic.readShort msg = .ok (n, coins)) : unpackAndVerify cfg s msg =
      match depositLoop cfg interval.id n s coins [] 0 with
      | (s, .error e) => (s, .error e)
      | (s, .ok (returnSlip, total)) => (s, .ok (n, returnSlip, total)) := by
  unfold unpackAndVerify
  simp only [hread, hcurrent]
  by_cases hzero : n = 0
  · subst hzero
    rfl
  · exact (if_neg hzero).trans rfl

section Outcomes

variable {accounts : Accounts} {user : String} {msg : Bytes} (hadded : Added cfg s t keys)
  (hnew : ∀ key ∈ keys, spent cfg s key = false) (hnodup : keys.Nodup)
include hadded hnew hnodup

/-- A deposit that raises after it has added `keys`. -/
theorem depositAllOrNothing_raised {e : PyError} (hmessage : depositOnMessage cfg s accounts user msg = (t, accounts, .error e)) :
    DepositAllOrNothing cfg s accounts user msg ↔ keys = [] := by
  have hncard := hadded.ncard_newlySpent hnew hnodup
  constructor
  · intro h
    have hsum := h.credited
    rw [hmessage, hncard] at hsum
    dsimp only at hsum
    exact List.length_eq_zero_iff.mp (by omega)
  · intro hkeys
    refine ⟨?_, fun e' _ => ?_⟩
    · rw [hmessage, hncard, hkeys]
      simp
    · rw [hmessage]
      exact ⟨hadded.same hkeys, rfl⟩

/-- A deposit that goes through and adds `keys`. -/
theorem depositAllOrNothing_done {total : Nat} (htotal : keys.length = total)
    (hmessage : depositOnMessage cfg s accounts user msg =
      (t, if 0 < total then accounts.credit user total else accounts, .ok ())) :
    DepositAllOrNothing cfg s accounts user msg ↔ (0 < total → Creditable accounts user total) := by
  have hncard := hadded.ncard_newlySpent hnew hnodup
  have hproperty : DepositAllOrNothing cfg s accounts user msg ↔
      ((if 0 < total then accounts.credit user total else accounts).select user).sum = (accounts.select user).sum + total := by
    constructor
    · intro h
      have hsum := h.credited
      rw [hmessage, hncard, htotal] at hsum
      exact hsum
    · intro h
      refine ⟨?_, fun e he => ?_⟩
      · rw [hmessage, hncard, htotal]
        exact h
      · rw [hmessage] at he
        cases he
  rw [hproperty]
  by_cases hpos : 0 < total
  · rw [if_pos hpos, forall_prop_of_true hpos]
    exact accounts.sum_credit user hpos
  · rw [if_neg hpos]
    exact iff_of_true (by simp; omega) fun h => absurd h hpos

end Outcomes

/-- A deposit is all or nothing exactly when the batch of its coins is, and the account can take the credit if the
batch comes to its end with a new coin. -/
theorem deposit_all_or_nothing (cfg : Config) (s : Server) (accounts : Accounts) (user : String) (msg : Bytes) :
    DepositAllOrNothing cfg s accounts user msg ↔ Whole (spent cfg s) (depositItems cfg s msg) ∧
      ((∀ i, ¬Fails (spent cfg s) (depositItems cfg s msg) i) → freshKeys (spent cfg s) (depositItems cfg s msg) ≠ [] →
        Creditable accounts user (freshKeys (spent cfg s) (depositItems cfg s msg)).length) := by
  have hempty : Whole (spent cfg s) [] ∧ ((∀ i, ¬Fails (spent cfg s) [] i) → freshKeys (spent cfg s) [] ≠ [] →
      Creditable accounts user (freshKeys (spent cfg s) []).length) :=
    ⟨fun i key hfresh => absurd hfresh not_fresh_nil, fun _ hne => absurd rfl hne⟩
  unfold depositItems
  cases hcurrent : s.current with
  | none =>
    have hunpack : ∃ result, unpackAndVerify cfg s msg = (s, result) ∧ ∀ n slip total, result = .ok (n, slip, total) → total = 0 := by
      unfold unpackAndVerify
      rw [hcurrent]
      split
      · exact ⟨_, rfl, nofun⟩
      · split
        · refine ⟨_, rfl, fun n slip total h => ?_⟩
          cases h
          rfl
        · exact ⟨_, rfl, nofun⟩
    obtain ⟨result, hresult, htotal⟩ := hunpack
    refine iff_of_true (.of_unchanged ?_ ?_) hempty
    · rw [depositOnMessage, hresult]
      cases result <;> rfl
    · rw [depositOnMessage, hresult]
      cases result with
      | error e => rfl
      | ok result =>
        have hzero := htotal _ _ _ rfl
        simp [hzero]
  | some interval =>
    cases hread : Basic.readShort msg with
    | error e =>
      refine iff_of_true (.of_unchanged ?_ ?_) hempty <;> simp [depositOnMessage, unpackAndVerify, hread]
    | ok read =>
      obtain ⟨n, coins⟩ := read
      dsimp only
      have hunpack := unpackAndVerify_eq cfg hcurrent hread
      obtain ⟨hadded, hends, hcredit⟩ := depositLoop_processes cfg interval.id n s coins [] 0
      generalize coinItems cfg s interval.id (fun _ => true) COIN_BYTES n coins = items at hadded hends hcredit
      generalize depositLoop cfg interval.id n s coins [] 0 = after at hunpack hadded hends hcredit
      obtain ⟨t, result⟩ := after
      have hnew := fun key (hkey : key ∈ (process (spent cfg s) items).1) => not_seen_of_mem_process hkey
      rw [whole_iff]
      cases result with
      | error e =>
        have hfails : (process (spent cfg s) items).2 = false := Bool.eq_false_iff.mpr fun hfinished => by
          obtain ⟨slip, total, h⟩ := hends.mpr hfinished
          cases h
        have hnot : ¬∀ i, ¬Fails (spent cfg s) items i := fun h => by
          cases (process_finished.mpr h).symm.trans hfails
        rw [and_iff_left fun h => absurd h hnot, forall_prop_of_true hfails]
        apply depositAllOrNothing_raised hadded hnew nodup_process
        rw [depositOnMessage, hunpack]
      | ok result =>
        obtain ⟨slip, total⟩ := result
        have hfinished : (process (spent cfg s) items).2 = true := hends.mp ⟨slip, total, rfl⟩
        have hlength : (process (spent cfg s) items).1.length = total := by
          rw [hcredit slip total rfl, Nat.zero_add]
        have hfresh : (freshKeys (spent cfg s) items).length = total := by
          rw [← length_process hfinished, hlength]
        have hwhole : (process (spent cfg s) items).2 = false → (process (spent cfg s) items).1 = [] := fun h => by
          cases hfinished.symm.trans h
        rw [and_iff_right hwhole, forall_prop_of_true (process_finished.mp hfinished), ← List.length_pos_iff, hfresh]
        apply depositAllOrNothing_done hadded hnew nodup_process hlength
        rw [depositOnMessage, hunpack]

def exampleAccounts : Accounts where
  rows := [("relay", 60)]
  nodup := by decide
  inRange := by decide

/-- A deposit that announces two coins and has one burns it without a credit. -/
theorem deposit_burnt_uncredited : ¬DepositAllOrNothing .example exampleServer exampleAccounts "relay" ([0, 2] ++ unitCoin) := by
  intro h
  have hspent : spent .example (depositOnMessage .example exampleServer exampleAccounts "relay" ([0, 2] ++ unitCoin)).1 unitKey =
      true := by decide +kernel
  have hnew : spent .example exampleServer unitKey = false := by decide +kernel
  have hraised : (depositOnMessage .example exampleServer exampleAccounts "relay" ([0, 2] ++ unitCoin)).2.2 =
      .error (.assertionError "Message was not long enough to unpack !32sI96s") := by
    decide +kernel
  have hsame := (h.raised _ hraised).1
  have hkept : spent .example (depositOnMessage .example exampleServer exampleAccounts "relay" ([0, 2] ++ unitCoin)).1 unitKey =
      spent .example exampleServer unitKey := by
    simp only [spent, spentSet, hsame]
  cases hspent.symm.trans (hkept.trans hnew)

end BitBlinder.Bank
