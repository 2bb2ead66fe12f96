import BitBlinder.Runs
import BitBlinder.Client.BankFrames

/-!
# One bank message at a time

`send_message` and `on_bank_message_done` keep one request or deposit
connection open at a time as long as `on_bank_message_done` is called once for
each of them. The login factory calls it too, so the property is about runs in
which a login connection only ends while no message is being sent.
-/

namespace BitBlinder.Client

set_option autoImplicit false

open Struct Effects

def Output.packedNum : Output → Option Nat
  | .packed n => some n
  | _ => none

namespace BankConnection

/-- The open connections of requests and deposits. -/
def inFlight (s : BankConnection) : List Connection := s.connections.filter fun c => c.factory.isMessage

/-- The numbers that `make_bank_prefix` has packed, in order. -/
def packedNums (s : BankConnection) : List Nat := s.history.filterMap Output.packedNum

/-- Whether the `j`-th connection is one of a login. -/
def isLogin (s : BankConnection) (j : Nat) : Bool := (s.connections[j]?).any fun c => !c.factory.isMessage

/-- A login connection ends only while no message is in progress. -/
def LoginEndsIdle (s : BankConnection) : Action → Prop
  | .connectionFailed j => s.isLogin j = true → s.messageInProgress = false
  | .connectionLost j => s.isLogin j = true → s.messageInProgress = false
  | _ => True

instance decidableLoginEndsIdle (s : BankConnection) : ∀ a, Decidable (s.LoginEndsIdle a)
  | .connectionFailed _ | .connectionLost _ => inferInstanceAs (Decidable (_ → _))
  | .start | .login | .requestCoins _ _ | .depositAcoins _ | .addAcoin _ | .onEarnedCoin _
  | .getAcoins _ | .updateCoins | .checkNextAcoins | .onUpdate | .onNewInfo _ _ _ _ | .stop
  | .shutdownTimeout | .connectionMade _ | .stringReceived _ _ _ _ => isTrue trivial

/-- The state of the message queue between two events. -/
structure Serial (inProgress : Bool) (inFlight : List Connection) (queue : List Message) (num : Nat)
    (packed : List Nat) : Prop where
  idle : inProgress = false → inFlight = [] ∧ queue = []
  busy : inProgress = true → inFlight.length = 1
  le : ∀ n ∈ packed, n ≤ num
  lt : ∀ c ∈ inFlight, c.made = false → ∀ n ∈ packed, n < num
  increasing : packed.Pairwise (· < ·)

def Serialised (s : BankConnection) : Prop :=
  Serial s.messageInProgress s.inFlight s.messageQueue s.messageNum s.packedNums

def KeepsSerial (s t : BankConnection) : Prop := s.Serialised → t.Serialised

instance : IsPreorder BankConnection KeepsSerial where
  refl _ h := h
  trans _ _ _ hst htu h := htu (hst h)

theorem serialised_new : new.Serialised where
  idle _ := ⟨rfl, rfl⟩
  busy h := by cases h
  le _ h := by cases h
  lt _ h := by cases h
  increasing := .nil

theorem Serial.length_le {inProgress : Bool} {inFlight : List Connection} {queue : List Message}
    {num : Nat} {packed : List Nat} (h : Serial inProgress inFlight queue num packed) :
    inFlight.length ≤ 1 := by
  cases inProgress with
  | false => simp [(h.idle rfl).1]
  | true => exact Nat.le_of_eq (h.busy rfl)

theorem Serial.inProgress_of_mem {inProgress : Bool} {inFlight : List Connection}
    {queue : List Message} {num : Nat} {packed : List Nat}
    (h : Serial inProgress inFlight queue num packed) {c : Connection} (hc : c ∈ inFlight) :
    inProgress = true := by
  cases inProgress with
  | false =>
    rw [(h.idle rfl).1] at hc
    cases hc
  | true => rfl

/-- The connections in flight may be replaced one by one, as long as none of them goes back
to not being made. -/
theorem Serial.replace {inProgress : Bool} {inFlight inFlight' : List Connection}
    {queue : List Message} {num : Nat} {packed : List Nat}
    (h : Serial inProgress inFlight queue num packed) (hlen : inFlight'.length = inFlight.length)
    (hmade : ∀ c ∈ inFlight', c.made = false → ∃ c' ∈ inFlight, c'.made = false) :
    Serial inProgress inFlight' queue num packed where
  idle hidle := by
    obtain ⟨hnil, hqueue⟩ := h.idle hidle
    rw [hnil] at hlen
    exact ⟨List.length_eq_zero_iff.mp hlen, hqueue⟩
  busy hbusy := hlen.trans (h.busy hbusy)
  le := h.le
  lt c hc hcmade := by
    obtain ⟨c', hc', hmade'⟩ := hmade c hc hcmade
    exact h.lt c' hc' hmade'
  increasing := h.increasing

/-! ### The calls that keep the queue in order -/

theorem setFactory_serial (j : Nat) {f : Factory → Factory}
    (hf : ∀ g, (f g).isMessage = g.isMessage) : Moves KeepsSerial (setFactory j f) := by
  refine .modify fun s h => ?_
  cases hj : s.connections[j]? with
  | none =>
    have hsame : s.connections.modify j (fun c => { c with factory := f c.factory }) = s.connections :=
      List.modify_eq_self (List.getElem?_eq_none_iff.mp hj)
    unfold Serialised inFlight
    dsimp only
    rw [hsame]
    exact h
  | some c =>
    have hnew := (modify_perm hj fun c => { c with factory := f c.factory }).filter
      fun c => c.factory.isMessage
    have hold := (cons_eraseIdx_perm hj).filter fun c => c.factory.isMessage
    refine Serial.replace h ?_ ?_
    · refine hnew.length_eq.trans (Eq.trans ?_ hold.length_eq)
      cases hc : c.factory.isMessage <;> simp [hf, hc]
    · intro d hd hdmade
      have hd' := hnew.mem_iff.mp hd
      by_cases hc : c.factory.isMessage = true
      · rw [List.filter_cons_of_pos (by simpa [hf] using hc), List.mem_cons] at hd'
        rcases hd' with rfl | hd'
        · exact ⟨c, hold.mem_iff.mp (by simp [hc]), hdmade⟩
        · exact ⟨d, hold.mem_iff.mp (by simp [hc, hd']), hdmade⟩
      · rw [List.filter_cons_of_neg (by simpa [hf] using hc)] at hd'
        exact ⟨d, hold.mem_iff.mp (by simpa [hc] using hd'), hdmade⟩

/-- A message that goes out while nothing is in flight gets a number above all before it. -/
theorem Serial.launch {queue : List Message} {num : Nat} {packed : List Nat}
    (hle : ∀ n ∈ packed, n ≤ num) (hinc : packed.Pairwise (· < ·)) (c : Connection) :
    Serial true [c] queue (num + 1) packed where
  idle h := by cases h
  busy _ := rfl
  le n hn := Nat.le_succ_of_le (hle n hn)
  lt _ _ _ n hn := Nat.lt_succ_of_le (hle n hn)
  increasing := hinc

theorem inFlight_sendNext {s : BankConnection} (hnil : s.inFlight = []) (m : Message) :
    (s.connections ++ [Connection.mk (.message m) false]).filter (fun c => c.factory.isMessage) =
      [Connection.mk (.message m) false] := by
  unfold inFlight at hnil
  rw [List.filter_append, hnil]
  rfl

theorem sendMessage_serial (m : Message) : Moves KeepsSerial (sendMessage m) := by
  intro s
  simp only [sendMessage, sendNextMessage, outcome_bind, outcome_get, outcome_ite, outcome_modify]
  split
  · rename_i hidle
    intro h
    have hnil := (h.idle (by simpa using hidle)).1
    unfold Serialised inFlight
    dsimp only
    rw [inFlight_sendNext hnil]
    exact .launch h.le h.increasing _
  · rename_i hbusy
    intro h
    refine ⟨fun hidle => ?_, h.busy, h.le, h.lt, h.increasing⟩
    exact absurd hidle (by simpa using hbusy)

/-- The message that was in flight has ended, or none was being sent. -/
structure Released (s : BankConnection) : Prop where
  inFlight : s.inFlight = []
  queue : s.messageInProgress = false → s.messageQueue = []
  le : ∀ n ∈ s.packedNums, n ≤ s.messageNum
  increasing : s.packedNums.Pairwise (· < ·)

theorem onBankMessageDone_serial {s : BankConnection} (h : s.Released) :
    Outcome onBankMessageDone s (fun _ => Serialised) fun _ => Serialised := by
  simp only [onBankMessageDone, sendNextMessage, outcome_bind, outcome_get]
  cases hq : s.messageQueue with
  | nil =>
    rw [outcome_modify]
    refine ⟨fun _ => ⟨h.inFlight, hq⟩, fun hbusy => Bool.noConfusion hbusy, h.le, ?_, h.increasing⟩
    intro c hc
    have hmem : c ∈ s.inFlight := hc
    rw [h.inFlight] at hmem
    cases hmem
  | cons m queue =>
    simp only [outcome_bind, outcome_modify]
    have hbusy : s.messageInProgress = true := by
      cases hp : s.messageInProgress with
      | true => rfl
      | false =>
        rw [h.queue hp] at hq
        cases hq
    unfold Serialised BankConnection.inFlight
    dsimp only
    rw [inFlight_sendNext h.inFlight, hbusy]
    exact .launch h.le h.increasing _

theorem keepsSerial_of_eq {s t : BankConnection} (hprogress : t.messageInProgress = s.messageInProgress)
    (hconnections : t.connections = s.connections) (hqueue : t.messageQueue = s.messageQueue)
    (hnum : t.messageNum = s.messageNum) (hpacked : t.packedNums = s.packedNums) : KeepsSerial s t := by
  intro h
  unfold Serialised inFlight
  rw [hprogress, hconnections, hqueue, hnum, hpacked]
  exact h

theorem output_serial {o : Output} (ho : o.packedNum = none) : Moves KeepsSerial (output o) := by
  refine .modify fun s => keepsSerial_of_eq rfl rfl rfl rfl ?_
  simp [packedNums, List.filterMap_append, ho]

theorem depositAcoins_serial (coins : List ACoin) : Moves KeepsSerial (depositAcoins coins) :=
  .bind .get fun _ => .when fun _ => .bind (.modify fun _ h => h) fun _ => sendMessage_serial _

theorem blind_keepsSerial : Blind KeepsSerial where
  core h := keepsSerial_of_eq (congrArg Core.inProgress h) (congrArg Core.connections h)
    (congrArg Core.queue h) (congrArg Core.num h)
    (congrArg (List.filterMap Output.packedNum) (congrArg Core.history h))
  report ho := output_serial (by cases ‹Output› <;> first | rfl | cases ho)
  send _ := sendMessage_serial _
  balance _ _ h := h
  add _ := .bind .get fun _ => .ite (fun _ => .throw _) fun _ => .modify fun _ h => h
  deposit := depositAcoins_serial
  append _ := .modify fun _ h => h
  learn _ _ _ _ _ _ _ _ _ h := h
  setDone j := setFactory_serial j fun g => by cases g <;> rfl
  setRequest j _ _ _ := setFactory_serial j fun g => by cases g <;> rfl
  coins _ _ _ h := h
  clear _ h := ⟨fun hidle => ⟨(h.idle hidle).1, rfl⟩, h.busy, h.le, h.lt, h.increasing⟩
  returned coins s := by
    refine keepsSerial_of_eq rfl rfl rfl rfl ?_
    simp [packedNums, List.filterMap_append, List.filterMap_map, Output.packedNum, Function.comp_def]
  statuses coins returnSlip s := by
    refine keepsSerial_of_eq rfl rfl rfl rfl ?_
    have hnone : (List.zipWith Output.status coins returnSlip).filterMap Output.packedNum = [] := by
      rw [List.filterMap_eq_nil_iff]
      intro o ho
      obtain ⟨i, hi, rfl⟩ := List.mem_iff_getElem.mp ho
      simp [Output.packedNum]
    simp [packedNums, List.filterMap_append, hnone]
  setResponse j _ _ := setFactory_serial j fun g => by cases g <;> rfl

theorem login_serial : Moves KeepsSerial login := by
  refine .bind .get fun s => .when fun _ => .modify fun t h => ?_
  have hsame : (t.connections ++ [Connection.mk (.login false) false]).filter
      (fun c => c.factory.isMessage) = t.inFlight := by
    rw [List.filter_append]
    exact List.append_nil _
  unfold Serialised inFlight
  dsimp only
  rw [hsame]
  exact h

/-! ### Connections that are made and that end -/

/-- The `j`-th connection, when it carries a message, is the only one in flight. -/
theorem inFlight_eraseIdx {s : BankConnection} (h : s.Serialised) {j : Nat} {c : Connection}
    (hj : s.connections[j]? = some c) (hc : c.factory.isMessage = true) :
    (s.connections.eraseIdx j).filter (fun c => c.factory.isMessage) = [] := by
  have hperm := (cons_eraseIdx_perm hj).filter fun c => c.factory.isMessage
  rw [List.filter_cons_of_pos (by simpa using hc)] at hperm
  have hlen := hperm.length_eq
  have hone : s.inFlight.length ≤ 1 := h.length_le
  unfold inFlight at hone
  rw [List.length_cons] at hlen
  apply List.eq_nil_of_length_eq_zero
  omega

/-- `make_bank_prefix` for the one connection in flight, which has just been made. -/
theorem makeBankPrefix_serial {s : BankConnection} (h : s.Serialised)
    (hmade : ∀ c ∈ s.inFlight, c.made = true) (hlt : ∀ n ∈ s.packedNums, n < s.messageNum)
    (protocolVersion request : Nat) :
    Outcome (makeBankPrefix protocolVersion request) s (fun _ => Serialised) fun _ => Serialised := by
  simp only [makeBankPrefix, attempt, outcome_bind, outcome_get]
  split
  · simp only [output, outcome_pure, outcome_modify]
    have hnums : BankConnection.packedNums
        { s with history := s.history ++ [Output.packed s.messageNum] } =
        s.packedNums ++ [s.messageNum] := by
      simp [packedNums, List.filterMap_append, Output.packedNum]
    unfold Serialised
    rw [hnums]
    refine ⟨h.idle, h.busy, fun n hn => ?_, fun c hc hcmade => ?_, ?_⟩
    · rcases List.mem_append.mp hn with hn | hn
      · exact h.le n hn
      · exact Nat.le_of_eq (List.mem_singleton.mp hn)
    · have hctrue := hmade c hc
      rw [hcmade] at hctrue
      cases hctrue
    · rw [List.pairwise_append]
      refine ⟨h.increasing, List.pairwise_singleton _ _, ?_⟩
      intro a ha b hb
      rw [List.mem_singleton.mp hb]
      exact hlt a ha
  · exact h

theorem connectionMade_serial {s : BankConnection} (h : s.Serialised)
    (hmade : ∀ c ∈ s.inFlight, c.made = true) (hlt : ∀ n ∈ s.packedNums, n < s.messageNum)
    (m : Message) : Outcome (connectionMade m) s (fun _ => Serialised) fun _ => Serialised := by
  refine Moves.after (R := KeepsSerial) (makeBankPrefix_serial h hmade hlt _ _) (fun head => ?_)
    fun hst hs => hst hs
  have hblind : Blind KeepsSerial := blind_keepsSerial
  exact .bind (.attempt _) fun body => hblind.sendEncrypted _

theorem establish_serial {s : BankConnection} (h : s.Serialised) {j : Nat} {f : Factory}
    (hj : s.connections[j]? = some { factory := f, made := false }) :
    (finish (establish j f) s).Serialised := by
  rw [← outcome_finish (x := establish j f) (I := Serialised)]
  rw [establish, outcome_bind, outcome_modify]
  have hperm := (modify_perm hj fun c => { c with made := true }).filter fun c => c.factory.isMessage
  cases f with
  | login done =>
    have hold := (cons_eraseIdx_perm hj).filter fun c => c.factory.isMessage
    have hsame := hperm.trans hold
    refine Serial.replace h hsame.length_eq ?_
    intro c hc hmade
    exact ⟨c, hsame.mem_iff.mp hc, hmade⟩
  | message m =>
    have hmem : Connection.mk (.message m) false ∈ s.inFlight :=
      List.mem_filter.mpr ⟨List.mem_of_getElem? hj, rfl⟩
    have hnil := inFlight_eraseIdx h hj rfl
    rw [List.filter_cons_of_pos (by rfl), hnil] at hperm
    -- The connection is the only one in flight, so afterwards every one is made.
    have hnew := List.perm_singleton.mp hperm
    refine connectionMade_serial
      (s := { s with connections := s.connections.modify j fun c => { c with made := true } })
      (Serial.replace h ?_ ?_) ?_ (h.lt _ hmem rfl) m
    · unfold inFlight
      rw [hnew]
      exact (h.busy (h.inProgress_of_mem hmem)).symm
    · intro c hc hmade
      exact ⟨_, hmem, rfl⟩
    · intro c hc
      unfold inFlight at hc
      rw [hnew] at hc
      rw [List.mem_singleton.mp hc]

theorem loginDone_serial {s : BankConnection} (h : s.Released) (made done : Bool) :
    Outcome (loginDone made done) s (fun _ => Serialised) fun _ => Serialised := by
  have hfailure : Outcome (when (made ∧ !done) onLoginFailure) s (fun _ => Released)
      fun _ => Serialised := by
    simp only [onLoginFailure, outcome_when, outcome_bind, outcome_get, outcome_modify]
    split
    · split
      · exact ⟨h.inFlight, h.queue, h.le, h.increasing⟩
      · exact h
    · exact h
  rw [loginDone, outcome_bind]
  refine hfailure.mono (fun _ t ht => ?_) fun _ _ h => h
  have hblind : Blind KeepsSerial := blind_keepsSerial
  exact Moves.after (R := KeepsSerial) (onBankMessageDone_serial ht)
    (fun _ => .when fun _ => hblind.onLoginFailure) fun hst hs => hst hs

theorem messageDone_serial {s : BankConnection} (h : s.Released) (m : Message) :
    Outcome (messageDone m) s (fun _ => Serialised) fun _ => Serialised := by
  refine Moves.after (R := KeepsSerial) (onBankMessageDone_serial h) (fun _ => ?_) fun hst hs => hst hs
  have hblind : Blind KeepsSerial := blind_keepsSerial
  cases m with
  | request value number requests => exact .modify fun _ h => h
  | deposit coins finishedDeferred gotResponse => exact hblind.draining.onDone _ _ _

theorem finishConnection_serial {s : BankConnection} (h : s.Serialised) {j : Nat} {made : Bool}
    {f : Factory} (hj : s.connections[j]? = some { factory := f, made })
    (hlogin : s.isLogin j = true → s.messageInProgress = false) :
    (finish (finishConnection j made f) s).Serialised := by
  rw [← outcome_finish (x := finishConnection j made f) (I := Serialised)]
  rw [finishConnection, outcome_bind, outcome_modify]
  have hnil : (s.connections.eraseIdx j).filter (fun c => c.factory.isMessage) = [] := by
    cases f with
    | login done =>
      have hidle := hlogin (by simp [isLogin, hj, Factory.isMessage])
      have hsub := (List.eraseIdx_sublist s.connections j).filter fun c => c.factory.isMessage
      have hnil := (h.idle hidle).1
      unfold inFlight at hnil
      rw [hnil] at hsub
      exact List.sublist_nil.mp hsub
    | message m => exact inFlight_eraseIdx h hj rfl
  have hreleased : Released { s with connections := s.connections.eraseIdx j } :=
    ⟨hnil, fun hidle => (h.idle hidle).2, h.le, h.increasing⟩
  cases f with
  | login done => exact loginDone_serial hreleased made done
  | message m => exact messageDone_serial hreleased m

theorem step_serialised {env : Environment} {s t : BankConnection} {a : Action} (h : s.Serialised)
    (hok : s.LoginEndsIdle a) (hstep : step env s a = some t) : t.Serialised := by
  have hblind : Blind KeepsSerial := blind_keepsSerial
  refine hblind.step env login_serial ?_ ?_ ?_ hstep h
  · intro j f hf h
    exact establish_serial h (connectionIn_eq_some hf)
  · rintro j f rfl hf h
    exact finishConnection_serial h (connectionIn_eq_some hf) hok
  · rintro j f rfl hf h
    exact finishConnection_serial h (connectionIn_eq_some hf) hok

/-- In every run whose login connections end only while no message is in progress, at most one
request or deposit is in flight at every moment, and the numbers packed into the messages are
strictly increasing. -/
theorem messages_serialised (env : Environment) {as : List Action} {s : BankConnection}
    (h : Run (step env) LoginEndsIdle new as s) :
    s.inFlight.length ≤ 1 ∧ s.packedNums.Pairwise (· < ·) := by
  have hs : s.Serialised := h.invariant step_serialised serialised_new
  exact ⟨hs.length_le, hs.increasing⟩

/-- A login, its end, and two deposit messages one after the other. -/
def loginThenDeposits : List Action :=
  loggingIn 0 1 ++ [.connectionLost 0, .depositAcoins [], .connectionMade 0, .connectionLost 0,
    .depositAcoins [], .connectionMade 0]

theorem messages_serialised_login_then_deposits :
    ∃ s, Run (step exampleEnvironment) LoginEndsIdle new loginThenDeposits s ∧
      s.packedNums = [1, 2] ∧ s.inFlight.length ≤ 1 ∧ s.packedNums.Pairwise (· < ·) := by
  have hend : (exec (step exampleEnvironment) new loginThenDeposits).any (fun s =>
      decide (s.packedNums = [1, 2])) = true := by decide
  have hok : EachStep (step exampleEnvironment) LoginEndsIdle new loginThenDeposits := by decide
  obtain ⟨s, hrun, hdecide⟩ := exists_run hend hok
  exact ⟨s, hrun, of_decide_eq_true hdecide, messages_serialised exampleEnvironment hrun⟩

/-- The request that a successful login sends is in flight when the login connection ends,
and the deposit that follows goes out beside it, with the same number. -/
theorem login_ends_during_request :
    ∃ s, Run (step exampleEnvironment) (fun _ _ => True) new
        (loggingIn 1 1 ++ [.connectionLost 0, .depositAcoins [], .connectionMade 0, .connectionMade 1]) s ∧
      ¬s.inFlight.length ≤ 1 ∧ s.packedNums = [2, 2] := by
  have hend : (exec (step exampleEnvironment) new
      (loggingIn 1 1 ++ [.connectionLost 0, .depositAcoins [], .connectionMade 0, .connectionMade 1])).any
      (fun s => decide (¬s.inFlight.length ≤ 1 ∧ s.packedNums = [2, 2])) = true := by decide +kernel
  obtain ⟨s, hrun, hdecide⟩ := exists_run hend (eachStep_true _ _)
  exact ⟨s, hrun, of_decide_eq_true hdecide⟩

end BankConnection

end BitBlinder.Client
