import Mathlib.Data.List.Dedup
import BitBlinder.Bank.Accounts
import BitBlinder.Bank.DoubleSpend
import BitBlinder.Effects
import BitBlinder.FifoCache
import BitBlinder.Runs

/-!
# Payments over UDP

`UDPServer` of `BankServer.py`, with the cache of its replies and the queue
that bounds it, and `ServerSymKey.decrypt`. The cipher, its key and the HMAC
are given from outside. `answered` lists the requests that got a reply to their
payment, whether it was new or came out of the cache; no function reads it.
Writing to the socket does not fail.
-/

namespace BitBlinder.Bank

set_option autoImplicit false

open Struct Effects

/-- The number of replies that are kept. -/
def MAX_SIZE : Nat := 500

def BANK_KEY_LENGTH : Nat := 48

structure Address where
  host : String
  port : Nat

/-- `keyDecrypt` is that of the bank's private key; `cipher` and `hmac` take the random data of a
message as their key. -/
structure DatagramKey where
  keyDecrypt : Bytes → PyExcept Bytes
  cipher : Bytes → Bytes → Bytes
  hmac : Bytes → Bytes → Bytes

/-- `ServerSymKey.decrypt`. -/
def DatagramKey.decrypt (key : DatagramKey) (msg : Bytes) : PyExcept Bytes := do
  let (encRandomData, msg) ← Basic.readField (.s BANK_KEY_LENGTH) msg
  let randomData ← key.keyDecrypt encRandomData
  let msg := key.cipher randomData msg
  if key.hmac randomData (msg.drop 32) ≠ msg.take 32 then
    throw (.exception "HMAC does not authenticate, is something bad going on?")
  return msg.drop 32

/-- Messages in the clear and an HMAC of zeros, for concrete runs. -/
def DatagramKey.example : DatagramKey where
  keyDecrypt := Except.ok
  cipher _ msg := msg
  hmac _ _ := List.replicate 32 0

structure Answer where
  request : Bytes
  response : Bytes
  cached : Bool

structure UdpServer where
  bank : Server
  cache : AList (fun _ : Bytes => Bytes)
  queue : List Bytes
  written : List (Address × Bytes)
  answered : List Answer

abbrev Udp := EStateM PyError UdpServer

namespace UdpServer

def initial : UdpServer where
  bank := .initial
  cache := ∅
  queue := []
  written := []
  answered := []

/-- The loop of `reply`; it ends at the latest when the queue is empty. -/
def trim : Nat → Udp Unit
  | 0 => return ()
  | fuel + 1 => do
    let s ← get
    match s.queue with
    | [] => return ()
    | request :: rest =>
      when (MAX_SIZE < s.queue.length) do
        modify fun s => { s with queue := rest }
        if request ∈ s.cache then do
          modify fun s => { s with cache := s.cache.erase request }
          trim fuel
        else
          throw .keyError

/-- `self.transport.write`. -/
def write (address : Address) (response : Bytes) : Udp Unit :=
  modify fun s => { s with written := s.written ++ [(address, response)] }

/-- `reply` with a new response to a request. -/
def replyAndKeep (request : Bytes) (address : Address) (response : Bytes) : Udp Unit := do
  let s ← get
  when (request ∉ s.cache) do
    modify fun s => { s with queue := s.queue ++ [request], cache := s.cache.insert request response }
    trim (s.queue.length + 1)
  modify fun s => { s with answered := s.answered ++ [⟨request, response, false⟩] }
  write address response

/-- `reply` with `putInQueue=False`, for a response out of the cache. -/
def replyAgain (request : Bytes) (address : Address) (response : Bytes) : Udp Unit := do
  modify fun s => { s with answered := s.answered ++ [⟨request, response, true⟩] }
  write address response

/-- `err`. -/
def err (address : Address) : Udp Unit := write address errorText

/-- `Payment.on_message`, whose `send_func` is `reply`. -/
def payment (cfg : Config) (request : Bytes) (address : Address) (msg : Bytes) : Udp Unit := do
  let s ← get
  let outcome := paymentOnMessage cfg s.bank msg
  modify fun s => { s with bank := outcome.1 }
  let response ← attempt outcome.2
  replyAndKeep request address response

/-- The body of `datagramReceived`. -/
def receive (cfg : Config) (key : DatagramKey) (datagram : Bytes) (address : Address) : Udp Unit := do
  let (msgType, request) ← attempt (Basic.readByte datagram)
  if msgType = 1 then do
    let s ← get
    match s.cache.lookup request with
    | some response => replyAgain request address response
    | none => do
      let msg ← attempt (key.decrypt request)
      let (requestType, msg) ← attempt (Basic.readByte msg)
      if requestType = 3 then
        payment cfg request address msg
      else
        throw (.exception ("Unknown request_type:  " ++ toString requestType))
  else
    throw (.exception ("Unknown msgType:  " ++ toString msgType))

def datagramReceived (cfg : Config) (key : DatagramKey) (datagram : Bytes) (address : Address) : Udp Unit :=
  rescue (receive cfg key datagram address) (err address)

/-- Datagrams, and what else happens at the bank. -/
inductive Action where
  | datagram (datagram : Bytes) (address : Address)
  | bank (event : Event)

def step (cfg : Config) (key : DatagramKey) (s : UdpServer) : Action → Option UdpServer
  | .datagram datagram address => some (finish (datagramReceived cfg key datagram address) s)
  | .bank event => (handle cfg s.bank event).map fun bank => { s with bank }

/-! ### The cache -/

/-- The requests that were processed, with their responses. -/
def processed (s : UdpServer) : List (Bytes × Bytes) :=
  (s.answered.filter fun answer => !answer.cached).map fun answer => (answer.request, answer.response)

structure Kept (s : UdpServer) : Prop where
  holds : FifoCache.Holds MAX_SIZE s.queue s.cache s.processed
  sent : ∀ answer ∈ s.answered, ∃ address, (address, answer.response) ∈ s.written

theorem kept_initial : initial.Kept where
  holds := FifoCache.holds_empty MAX_SIZE
  sent := fun _ h => by cases h

theorem trim_short {s : UdpServer} (fuel : Nat) (h : s.queue.length ≤ MAX_SIZE) {Q : Unit → UdpServer → Prop}
    {E : PyError → UdpServer → Prop} (hQ : Q () s) : Outcome (trim fuel) s Q E := by
  cases fuel with
  | zero => exact hQ
  | succ fuel =>
    rw [trim, outcome_bind, outcome_get]
    cases hqueue : s.queue with
    | nil => exact hQ
    | cons request rest =>
      dsimp only
      rw [← hqueue, outcome_when, if_neg (Nat.not_lt.mpr h)]
      exact hQ

/-- The loop takes out one request when there is one too many. -/
theorem trim_full {s : UdpServer} (fuel : Nat) {request : Bytes} {rest : List Bytes}
    (hqueue : s.queue = request :: rest) (hlength : rest.length = MAX_SIZE) (hmem : request ∈ s.cache)
    {Q : Unit → UdpServer → Prop} {E : PyError → UdpServer → Prop}
    (hQ : Q () { s with queue := rest, cache := s.cache.erase request }) : Outcome (trim (fuel + 1)) s Q E := by
  have hlong : MAX_SIZE < s.queue.length := by
    rw [hqueue, List.length_cons, hlength]
    exact Nat.lt_succ_self _
  rw [trim, outcome_bind, outcome_get, hqueue]
  dsimp only
  rw [← hqueue, outcome_when, if_pos hlong, outcome_bind, outcome_modify, outcome_ite, if_pos hmem, outcome_bind,
    outcome_modify]
  exact trim_short fuel (Nat.le_of_eq hlength) hQ

/-- Where a request was processed, and the response is kept for it. -/
structure Served (s : UdpServer) (bank : Server) (request : Bytes) (address : Address) (response : Bytes)
    (t : UdpServer) : Prop where
  kept : t.Kept
  bank_eq : t.bank = bank
  answered_eq : t.answered = s.answered ++ [⟨request, response, false⟩]
  written_eq : t.written = s.written ++ [(address, response)]

theorem processed_concat (s : UdpServer) (request response : Bytes) {t : UdpServer}
    (h : t.answered = s.answered ++ [⟨request, response, false⟩]) :
    t.processed = s.processed ++ [(request, response)] := by
  unfold processed
  rw [h, List.filter_append, List.map_append]
  rfl

theorem replyAndKeep_served {s : UdpServer} (h : s.Kept) {request : Bytes} (hnew : request ∉ s.cache)
    (address : Address) (response : Bytes) :
    Outcome (replyAndKeep request address response) s (fun _ => Served s s.bank request address response)
      fun _ _ => False := by
  have hsent : ∀ answer ∈ s.answered ++ [⟨request, response, false⟩],
      ∃ target, (target, answer.response) ∈ s.written ++ [(address, response)] := by
    intro answer hanswer
    rcases List.mem_append.mp hanswer with hanswer | hanswer
    · obtain ⟨target, htarget⟩ := h.sent answer hanswer
      exact ⟨target, List.mem_append_left _ htarget⟩
    · cases List.mem_singleton.mp hanswer
      exact ⟨address, List.mem_append_right _ List.mem_cons_self⟩
  have hserved : ∀ queue cache, FifoCache.Holds MAX_SIZE queue cache (s.processed ++ [(request, response)]) →
      Served s s.bank request address response { s with
        queue, cache
        answered := s.answered ++ [⟨request, response, false⟩]
        written := s.written ++ [(address, response)] } := by
    intro queue cache hholds
    refine ⟨⟨?_, hsent⟩, rfl, rfl, rfl⟩
    rwa [processed_concat s request response rfl]
  unfold replyAndKeep
  rw [outcome_bind, outcome_get, outcome_bind, outcome_when, if_pos hnew, outcome_bind, outcome_modify]
  rcases Nat.lt_or_ge s.queue.length MAX_SIZE with hroom | hfull
  · refine trim_short _ ?_ ?_
    · rw [List.length_append, List.length_singleton]
      exact hroom
    · exact hserved _ _ (h.holds.push hroom hnew response)
  · have hlength : s.queue.length = MAX_SIZE := Nat.le_antisymm h.holds.length_le hfull
    cases hqueue : s.queue with
    | nil =>
      rw [hqueue] at hlength
      cases hlength
    | cons first rest =>
      have hfirst : first ∈ s.cache := (h.holds.keys first).mp (by rw [hqueue]; exact List.mem_cons_self)
      refine trim_full _ (rfl : _ = first :: (rest ++ [request])) ?_ ?_ ?_
      · rw [hqueue] at hlength
        rw [List.length_append, List.length_singleton, ← hlength, List.length_cons]
      · exact (AList.mem_insert _).mpr (Or.inr hfirst)
      · exact hserved _ _ (h.holds.push_full hqueue hlength hnew response)

theorem Kept.write {s : UdpServer} (h : s.Kept) (address : Address) (response : Bytes) :
    Kept { s with written := s.written ++ [(address, response)] } where
  holds := h.holds
  sent := fun answer hanswer => by
    obtain ⟨target, htarget⟩ := h.sent answer hanswer
    exact ⟨target, List.mem_append_left _ htarget⟩

theorem processed_again (s : UdpServer) (request response : Bytes) {t : UdpServer}
    (h : t.answered = s.answered ++ [⟨request, response, true⟩]) : t.processed = s.processed := by
  unfold processed
  rw [h, List.filter_append]
  exact congrArg _ (List.append_nil _)

/-- An answer out of the cache is sent, and nothing else changes. -/
theorem Kept.again {s : UdpServer} (h : s.Kept) (request : Bytes) (address : Address) (response : Bytes) :
    Kept { s with
      answered := s.answered ++ [⟨request, response, true⟩]
      written := s.written ++ [(address, response)] } where
  holds := by
    rw [processed_again s request response rfl]
    exact h.holds
  sent := fun answer hanswer => by
    rcases List.mem_append.mp hanswer with hanswer | hanswer
    · obtain ⟨target, htarget⟩ := h.sent answer hanswer
      exact ⟨target, List.mem_append_left _ htarget⟩
    · cases List.mem_singleton.mp hanswer
      exact ⟨address, List.mem_append_right _ List.mem_cons_self⟩

section
variable {cfg : Config} {key : DatagramKey} {s : UdpServer}

theorem payment_kept (h : s.Kept) {request : Bytes} (hnew : request ∉ s.cache) (address : Address) (msg : Bytes) :
    Outcome (payment cfg request address msg) s (fun _ => Kept) fun _ => Kept := by
  unfold payment
  rw [outcome_bind, outcome_get, outcome_bind, outcome_modify, outcome_bind, outcome_attempt]
  have hbank : ∀ bank, Kept { s with bank } := fun bank => ⟨h.holds, h.sent⟩
  cases (paymentOnMessage cfg s.bank msg).2 with
  | error e => exact hbank _
  | ok response =>
    refine (replyAndKeep_served (hbank _) ?_ address response).mono (fun _ t ht => ht.kept) fun _ _ hfalse => hfalse.elim
    exact hnew

theorem receive_kept (h : s.Kept) (datagram : Bytes) (address : Address) :
    Outcome (receive cfg key datagram address) s (fun _ => Kept) fun _ => Kept := by
  unfold receive
  rw [outcome_bind, outcome_attempt]
  cases Basic.readByte datagram with
  | error e => exact h
  | ok p =>
    dsimp only
    rw [outcome_ite]
    split
    · rw [outcome_bind, outcome_get]
      cases hlookup : s.cache.lookup p.2 with
      | some response =>
        dsimp only
        rw [replyAgain, outcome_bind, outcome_modify]
        exact h.again p.2 address response
      | none =>
        dsimp only
        rw [outcome_bind, outcome_attempt]
        cases key.decrypt p.2 with
        | error e => exact h
        | ok msg =>
          dsimp only
          rw [outcome_bind, outcome_attempt]
          cases Basic.readByte msg with
          | error e => exact h
          | ok q =>
            dsimp only
            rw [outcome_ite]
            split
            · exact payment_kept h (AList.lookup_eq_none.mp hlookup) address q.2
            · exact h
    · exact h

theorem datagramReceived_kept (h : s.Kept) (datagram : Bytes) (address : Address) :
    (finish (datagramReceived cfg key datagram address) s).Kept := by
  rw [← outcome_finish (I := Kept), datagramReceived, outcome_rescue]
  exact (receive_kept h datagram address).mono (fun _ _ ht => ht) fun _ _ ht => ht.write address errorText

theorem step_kept {t : UdpServer} {action : Action} (h : s.Kept) (hstep : step cfg key s action = some t) : t.Kept := by
  cases action with
  | datagram datagram address =>
    cases hstep
    exact datagramReceived_kept h datagram address
  | bank event =>
    obtain ⟨bank, -, rfl⟩ := Option.map_eq_some_iff.mp hstep
    exact ⟨h.holds, h.sent⟩

/-- A request in the cache is answered out of it. -/
theorem datagramReceived_cached {request response : Bytes} (h : s.cache.lookup request = some response)
    (address : Address) :
    finish (datagramReceived cfg key (1 :: request) address) s = { s with
      answered := s.answered ++ [⟨request, response, true⟩]
      written := s.written ++ [(address, response)] } := by
  rw [← outcome_finish (I := fun t => t = _), datagramReceived, outcome_rescue, receive, outcome_bind, outcome_attempt,
    Basic.readByte_cons]
  dsimp only
  rw [outcome_ite, if_pos (by decide), outcome_bind, outcome_get, h]
  rfl

/-- A request that is not in the cache is processed. -/
theorem datagramReceived_new (h : s.Kept) {request msg response : Bytes} {bank : Server} (hnew : request ∉ s.cache)
    (hdecrypt : key.decrypt request = .ok (3 :: msg)) (hpayment : paymentOnMessage cfg s.bank msg = (bank, .ok response))
    (address : Address) :
    Served s bank request address response (finish (datagramReceived cfg key (1 :: request) address) s) := by
  rw [← outcome_finish (I := Served s bank request address response), datagramReceived, outcome_rescue, receive,
    outcome_bind, outcome_attempt, Basic.readByte_cons]
  dsimp only
  rw [outcome_ite, if_pos (by decide), outcome_bind, outcome_get, AList.lookup_eq_none.mpr hnew]
  dsimp only
  rw [outcome_bind, outcome_attempt, hdecrypt]
  dsimp only
  rw [outcome_bind, outcome_attempt, Basic.readByte_cons]
  dsimp only
  rw [outcome_ite, if_pos (by decide), payment, outcome_bind, outcome_get, outcome_bind, outcome_modify, outcome_bind,
    outcome_attempt, hpayment]
  have hkept : Kept { s with bank } := ⟨h.holds, h.sent⟩
  refine (replyAndKeep_served hkept hnew address response).mono ?_ fun _ _ hfalse => hfalse.elim
  exact fun _ t ht => ⟨ht.kept, ht.bank_eq, ht.answered_eq, ht.written_eq⟩

end

/-! ### A full cache -/

/-- A request in the clear under `DatagramKey.example`. -/
def plainRequest (block : Nat) (msg : Bytes) : Bytes :=
  packBE BANK_KEY_LENGTH block ++ (List.replicate 32 0 ++ msg)

theorem decrypt_plainRequest (block : Nat) (msg : Bytes) :
    DatagramKey.example.decrypt (plainRequest block msg) = .ok msg := by
  have hlength : (packBE BANK_KEY_LENGTH block).length = BANK_KEY_LENGTH := packBE_length _ _
  have hread : Basic.readField (.s BANK_KEY_LENGTH) (plainRequest block msg) =
      .ok (packBE BANK_KEY_LENGTH block, List.replicate 32 0 ++ msg) := by
    rw [Basic.readField_eq]
    · simp [plainRequest, Fmt.size, Fmt.unpack, hlength]
    · simp [plainRequest, Fmt.size]
  rw [DatagramKey.decrypt, hread]
  simp [DatagramKey.example]

theorem plainRequest_block_eq {i j : Nat} {msg msg' : Bytes} (hi : i < 256 ^ BANK_KEY_LENGTH)
    (hj : j < 256 ^ BANK_KEY_LENGTH) (h : plainRequest i msg = plainRequest j msg') : i = j := by
  have hlength : (packBE BANK_KEY_LENGTH i).length = (packBE BANK_KEY_LENGTH j).length := by
    rw [packBE_length, packBE_length]
  obtain ⟨hblock, -⟩ := List.append_inj h hlength
  have hunpack := congrArg unpackBE hblock
  rwa [unpackBE_packBE _ _ hi, unpackBE_packBE _ _ hj] at hunpack

def client : Address := ⟨"198.51.100.7", 3451⟩

def coinMessage : Bytes := [1] ++ unitCoin ++ List.replicate Globals.ACOIN_KEY_BYTES 0

/-- A payment of one coin. -/
def coinPayment : Bytes := plainRequest 0 (3 :: coinMessage)

/-- Payments of no coins, as many as there are keys. -/
def emptyPayment (k : Nat) : Bytes := plainRequest (k + 1) [3, 0]

def acceptedReply : Bytes := Status.accepted.code :: List.replicate Globals.ACOIN_KEY_BYTES 0

def opened : Server := (learnedCurrentAcoinInterval .example .initial [(1, 10), (2, 20)]).1

def paid : Server := (paymentOnMessage .example opened coinMessage).1

/-- The payment of a coin and `k` more requests. -/
def filling (k : Nat) : List Action :=
  [.bank (.lookup [(1, 10), (2, 20)]), .datagram (1 :: coinPayment) client] ++
    (List.range k).map fun j => .datagram (1 :: emptyPayment j) client

def filled (k : Nat) : List (Bytes × Bytes) :=
  [(coinPayment, acceptedReply)] ++ (List.range k).map fun j => (emptyPayment j, [])

structure Filled (k : Nat) (s : UdpServer) : Prop where
  run : Run (step .example .example) (fun _ _ => True) initial (filling k) s
  kept : s.Kept
  bank_eq : s.bank = paid
  processed_eq : s.processed = filled k

theorem Kept.not_mem_cache {s : UdpServer} (h : s.Kept) {request : Bytes}
    (hnew : request ∉ (s.processed.rtake MAX_SIZE).map Prod.fst) : request ∉ s.cache := by
  rw [← h.holds.keys, h.holds.queue_eq]
  exact hnew

theorem emptyPayment_ne_coinPayment {k : Nat} (hk : k + 1 < 256 ^ BANK_KEY_LENGTH) : emptyPayment k ≠ coinPayment := by
  intro heq
  have hblock := plainRequest_block_eq hk (Nat.lt_of_le_of_lt (Nat.zero_le _) hk) heq
  cases hblock

theorem Filled.not_mem_cache {k : Nat} (hk : k + 1 < 256 ^ BANK_KEY_LENGTH) {s : UdpServer} (h : Filled k s) :
    emptyPayment k ∉ s.cache := by
  apply h.kept.not_mem_cache
  intro hmem
  have hprocessed : emptyPayment k ∈ s.processed.map Prod.fst := List.map_subset _ (List.drop_subset _ _) hmem
  rw [h.processed_eq] at hprocessed
  rcases List.mem_cons.mp hprocessed with heq | hmem
  · exact emptyPayment_ne_coinPayment hk heq
  · obtain ⟨e, he, heq⟩ := List.mem_map.mp hmem
    obtain ⟨j, hj, rfl⟩ := List.mem_map.mp he
    have hjk : j < k := List.mem_range.mp hj
    have hblock := plainRequest_block_eq (by omega) hk heq
    omega

theorem processed_next {k : Nat} {s t : UdpServer} (hs : s.processed = filled k)
    (ht : t.answered = s.answered ++ [⟨emptyPayment k, [], false⟩]) : t.processed = filled (k + 1) := by
  rw [processed_concat s _ _ ht, hs, filled, filled, List.range_succ, List.map_append, List.map_singleton,
    List.append_assoc]

/-- The payment of the coin is the first to leave the cache. -/
theorem coinPayment_not_mem_cache {s : UdpServer} (h : s.Kept) (hs : s.processed = filled MAX_SIZE)
    (hkeys : MAX_SIZE < 256 ^ BANK_KEY_LENGTH) : coinPayment ∉ s.cache := by
  have hlength : ((List.range MAX_SIZE).map fun j => (emptyPayment j, ([] : Bytes))).length = MAX_SIZE := by
    rw [List.length_map, List.length_range]
  apply h.not_mem_cache
  rw [hs, filled, rtake_append_of_le (Nat.le_of_eq hlength), hlength, Nat.sub_self, List.rtake_zero, List.nil_append]
  intro hmem
  obtain ⟨e, he, heq⟩ := List.mem_map.mp hmem
  obtain ⟨j, hj, rfl⟩ := List.mem_map.mp he
  have hj' : j < MAX_SIZE := List.mem_range.mp hj
  exact emptyPayment_ne_coinPayment (by omega) heq

theorem paymentOnMessage_empty {cfg : Config} {s : Server} {current : AcoinInterval}
    (h : s.current = some current) : paymentOnMessage cfg s [0] = (s, .ok []) := by
  rw [paymentOnMessage, h]
  dsimp only
  rw [Basic.readByte_cons]
  rfl

/-- The payment of the coin is accepted once, in the interval that stays the current one. -/
theorem coinPayment_answers : paid.current = some ⟨1, 10, 20⟩ ∧
    (paymentOnMessage .example opened coinMessage).2 = .ok acceptedReply ∧
    (paymentOnMessage .example paid coinMessage).2 = .ok [Status.spent.code] := by
  decide +kernel

/-- A payment of no coins to a bank that has been paid. -/
theorem emptyPayment_served {s : UdpServer} (h : s.Kept) (hbank : s.bank = paid) {k : Nat}
    (hnew : emptyPayment k ∉ s.cache) :
    ∃ t, step .example .example s (.datagram (1 :: emptyPayment k) client) = some t ∧
      Served s paid (emptyPayment k) client [] t := by
  have hpayment : paymentOnMessage .example s.bank [0] = (paid, .ok []) := by
    rw [hbank]
    exact paymentOnMessage_empty coinPayment_answers.1
  exact ⟨_, rfl, datagramReceived_new h hnew (decrypt_plainRequest _ _) hpayment client⟩

theorem exists_filled (k : Nat) (hk : k < 256 ^ BANK_KEY_LENGTH) : ∃ s, Filled k s := by
  induction k with
  | zero =>
    have hopened : Kept { initial with bank := opened } := ⟨kept_initial.holds, kept_initial.sent⟩
    have hpayment : paymentOnMessage .example opened coinMessage = (paid, .ok acceptedReply) := by
      rw [paid, ← coinPayment_answers.2.1]
    have hnew : coinPayment ∉ initial.cache := AList.notMem_empty _
    have hserved := datagramReceived_new hopened hnew (decrypt_plainRequest _ _) hpayment client
    have hlookup : step .example .example initial (.bank (.lookup [(1, 10), (2, 20)])) =
        some { initial with bank := opened } := rfl
    refine ⟨_, .cons trivial hlookup (.cons trivial rfl (.refl _)), hserved.kept, hserved.bank_eq, ?_⟩
    rw [processed_concat _ _ _ hserved.answered_eq]
    rfl
  | succ k ih =>
    obtain ⟨s, hs⟩ := ih (Nat.lt_of_succ_lt hk)
    obtain ⟨t, hstep, hserved⟩ := emptyPayment_served hs.kept hs.bank_eq (hs.not_mem_cache hk)
    refine ⟨t, ?_, hserved.kept, hserved.bank_eq, ?_⟩
    · have hrun := hs.run.append (.cons trivial hstep (.refl t))
      rw [filling, List.append_assoc] at hrun
      rwa [filling, List.range_succ, List.map_append]
    · exact processed_next hs.processed_eq hserved.answered_eq

/-- In every run the queue lists the keys of the cache once each and is not longer than
`MAX_SIZE`, and each of the last `MAX_SIZE` requests that were processed, all of them
different, is answered again with the response it got, without another payment. -/
theorem udp_idempotent (cfg : Config) (key : DatagramKey) (s : UdpServer) (actions : List Action)
    (h : Run (step cfg key) (fun _ _ => True) initial actions s) :
    s.queue.Nodup ∧ (∀ request, request ∈ s.queue ↔ request ∈ s.cache) ∧ s.queue.length ≤ MAX_SIZE ∧
      ((s.processed.rtake MAX_SIZE).map Prod.fst).Nodup ∧
      ∀ request response, (request, response) ∈ s.processed.rtake MAX_SIZE →
        (∃ address, (address, response) ∈ s.written) ∧
        ∀ address, ∃ t, step cfg key s (.datagram (1 :: request) address) = some t ∧
          t.written = s.written ++ [(address, response)] ∧ t.bank = s.bank := by
  have hkept : s.Kept := h.invariant (fun hs _ hstep => step_kept hs hstep) kept_initial
  refine ⟨hkept.holds.nodup, hkept.holds.keys, hkept.holds.length_le, ?_, ?_⟩
  · rw [← hkept.holds.queue_eq]
    exact hkept.holds.nodup
  · intro request response hmem
    constructor
    · have hprocessed : (request, response) ∈ s.processed := List.mem_of_mem_drop hmem
      obtain ⟨answer, hanswer, heq⟩ := List.mem_map.mp hprocessed
      cases heq
      exact hkept.sent answer (List.mem_of_mem_filter hanswer)
    · intro address
      have hlookup := hkept.holds.found (request, response) hmem
      exact ⟨_, rfl, by rw [datagramReceived_cached hlookup], by rw [datagramReceived_cached hlookup]⟩

theorem udp_idempotent_coin :
    ∃ s, Run (step .example .example) (fun _ _ => True) initial (filling 0) s ∧
      s.queue.length ≤ MAX_SIZE ∧ (coinPayment, acceptedReply) ∈ s.processed.rtake MAX_SIZE ∧
      ∃ t, step .example .example s (.datagram (1 :: coinPayment) client) = some t ∧
        t.written = s.written ++ [(client, acceptedReply)] ∧ t.bank = s.bank := by
  obtain ⟨s, hs⟩ := exists_filled 0 (by decide)
  have hmem : (coinPayment, acceptedReply) ∈ s.processed.rtake MAX_SIZE := by
    rw [hs.processed_eq]
    exact List.mem_cons_self
  obtain ⟨-, -, hlength, -, hanswers⟩ := udp_idempotent .example .example s (filling 0) hs.run
  exact ⟨s, hs.run, hlength, hmem, (hanswers coinPayment acceptedReply hmem).2 client⟩

/-- The cache is full, the coin is asked for again, and one more request is processed. -/
def askedAgain : List Action :=
  filling 499 ++ [.datagram (1 :: coinPayment) client, .datagram (1 :: emptyPayment 499) client]

/-- An answer out of the cache does not renew its place in the queue: the payment of the coin is
the last but one of the datagrams that were answered, and yet it is processed again and the coin
found spent. -/
theorem answered_again_forgotten :
    ∃ s, Run (step .example .example) (fun _ _ => True) initial askedAgain s ∧
      coinPayment ∈ (s.answered.map Answer.request).dedup.rtake MAX_SIZE ∧
      (client, acceptedReply) ∈ s.written ∧
      ∃ t, step .example .example s (.datagram (1 :: coinPayment) client) = some t ∧
        t.written = s.written ++ [(client, [Status.spent.code])] ∧ [Status.spent.code] ≠ acceptedReply := by
  have hkeys : 499 + 1 < 256 ^ BANK_KEY_LENGTH := by decide
  obtain ⟨s, hs⟩ := exists_filled 499 (Nat.lt_of_succ_lt hkeys)
  have hlookup : s.cache.lookup coinPayment = some acceptedReply := by
    refine hs.kept.holds.found (coinPayment, acceptedReply) ?_
    rw [hs.processed_eq, rtake_of_le]
    · exact List.mem_append_left _ List.mem_cons_self
    · rw [filled, List.length_append, List.length_map, List.length_range]
      exact Nat.le_refl _
  let u : UdpServer := { s with
    answered := s.answered ++ [⟨coinPayment, acceptedReply, true⟩]
    written := s.written ++ [(client, acceptedReply)] }
  have hu : step .example .example s (.datagram (1 :: coinPayment) client) = some u :=
    congrArg some (datagramReceived_cached hlookup client)
  obtain ⟨v, hv, hserved⟩ := emptyPayment_served (hs.kept.again _ client _) hs.bank_eq (hs.not_mem_cache hkeys)
  have hagain : u.processed = filled 499 :=
    (processed_again s coinPayment acceptedReply rfl).trans hs.processed_eq
  have hforgotten : coinPayment ∉ v.cache :=
    coinPayment_not_mem_cache hserved.kept (processed_next hagain hserved.answered_eq) hkeys
  have hspent : paymentOnMessage .example v.bank coinMessage =
      ((paymentOnMessage .example paid coinMessage).1, .ok [Status.spent.code]) := by
    rw [hserved.bank_eq, ← coinPayment_answers.2.2]
  have hlast := datagramReceived_new hserved.kept hforgotten (decrypt_plainRequest _ _) hspent client
  refine ⟨v, hs.run.append (.cons trivial hu (.cons trivial hv (.refl v))), ?_, ?_, _, rfl, hlast.written_eq, ?_⟩
  · have hanswered : v.answered.map Answer.request =
        s.answered.map Answer.request ++ [coinPayment, emptyPayment 499] := by
      rw [hserved.answered_eq, List.map_append, List.map_append, List.append_assoc]
      rfl
    have hpair : [coinPayment, emptyPayment 499].Nodup :=
      List.nodup_iff_pairwise_ne.mpr (List.pairwise_pair.mpr (emptyPayment_ne_coinPayment hkeys).symm)
    rw [hanswered, List.dedup_append, List.dedup_eq_self.mpr hpair]
    obtain ⟨l, hl⟩ := List.suffix_union_right (s.answered.map Answer.request) [coinPayment, emptyPayment 499]
    rw [← hl, rtake_append_of_le (by decide)]
    exact List.mem_append_right _ List.mem_cons_self
  · rw [hserved.written_eq]
    exact List.mem_append_left _ (List.mem_append_right _ List.mem_cons_self)
  · decide

end UdpServer

end BitBlinder.Bank
