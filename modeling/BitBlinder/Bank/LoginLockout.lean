import BitBlinder.Effects
import BitBlinder.Runs
import BitBlinder.Basic

/-!
# The login server's lockout

`Server` of `LoginSSLserver.py`, for login attempts on one account name. Each
attempt has a connection of its own; what stays is the table `badlogin`. The
deferreds of the database fire in the order of the calls, and an errback covers
the callbacks that its comment or its place in the source says it covers. The
relay's row, which the lockout does not depend on, is left out. `int` truncates
every time that is read, so times are whole seconds.
-/

namespace BitBlinder.Bank

set_option autoImplicit false

open Struct Effects

/-- A row of `badlogin` with the account's name. -/
structure BadLogin where
  escalation : Nat
  timeout : Nat
  active : Bool
  deriving DecidableEq

/-- The account's row, if there is one, the digest of a password and the bank's address. -/
structure LoginConfig where
  account : Option (Bytes × Nat)
  formatAuth : Bytes → Bytes
  host : Bytes
  port : Nat

/-- The password is the account's. -/
def LoginConfig.right (cfg : LoginConfig) (password : Bytes) : Bool :=
  cfg.account.any fun account => account.1 = cfg.formatAuth password

/-- What a client sends, what the clock says when the timeout is looked up and when a new one is
stored, and what the server knows of the intervals. -/
structure LoginAttempt where
  password : Bytes
  hexIdSigned : Bool
  checkedAt : Nat
  flushedAt : Nat
  authBlob : Bytes
  interval : Nat
  curExp : Nat
  nextExp : Nat

inductive LoginReply where
  | granted (msg : Bytes)
  | refused (msg : Bytes)
  | error

/-- The table, the attributes of one connection and what was sent on it. -/
structure LoginServer where
  badlogin : List BadLogin
  successful : Bool
  timeout : Option Nat
  balance : Nat
  replies : List LoginReply

namespace LoginServer

abbrev Login := EStateM PyError LoginServer

def reply (msg : LoginReply) : Login Unit := modify fun s => { s with replies := s.replies ++ [msg] }

def err : Login Unit := reply .error

/-- `if self.timeout:`. -/
def truthy : Option Nat → Bool
  | none => false
  | some timeout => decide (timeout ≠ 0)

/-- `SELECT ... WHERE username = %s AND active = true`. -/
def activeRows (rows : List BadLogin) : List BadLogin := rows.filter BadLogin.active

/-- The code and the text that end a reply. -/
def optionalText : Bytes := 0 :: "hello".toUTF8.toList

def generateReply (cfg : LoginConfig) (a : LoginAttempt) : Login Unit := do
  let s ← get
  if s.successful then do
    let head ← attempt (Basic.structPack [.B, .B, .I, .I, .I, .I, .s 4, .I]
      (1, 1, s.balance, a.interval, a.curExp, a.nextExp, cfg.host, cfg.port, ()))
    reply (.granted (head ++ a.authBlob ++ optionalText))
  else
    match s.timeout with
    | none => throw .structError
    | some timeout => do
      let head ← attempt (Basic.structPack [.B, .B, .I] (1, 0, timeout, ()))
      reply (.refused (head ++ optionalText))

/-- The timeout that `flush_timeout_to_db` works out. -/
def escalatedTimeout (currentTime escalation : Nat) : Nat :=
  if escalation < 2 then currentTime
  else if escalation ≤ 24 then currentTime + 2 ^ escalation
  else currentTime + 31536000

/-- `flush_timeout_to_db`: the parameters of the update name a variable that does not exist. -/
def flushTimeoutToDb (a : LoginAttempt) (tup : List BadLogin) : Login Unit :=
  match tup with
  | [] => modify fun s => { s with
      badlogin := s.badlogin ++ [{ escalation := 0, timeout := a.flushedAt, active := true }]
      timeout := some a.flushedAt }
  | _ :: _ => throw .nameError

def generateTimeout (cfg : LoginConfig) (a : LoginAttempt) : Login Unit := do
  modify fun s => { s with successful := false }
  let s ← get
  if truthy s.timeout then
    generateReply cfg a
  else
    rescue
      (do
        let s ← get
        flushTimeoutToDb a (activeRows s.badlogin)
        generateReply cfg a)
      err

/-- `update_db1`. -/
def updateDb1 : Login Unit := do
  let s ← get
  when (truthy s.timeout) (modify fun s => { s with
    badlogin := s.badlogin.map fun row => { row with active := false } })

def updateDb (cfg : LoginConfig) (a : LoginAttempt) : Login Unit :=
  rescue
    (do
      updateDb1
      generateReply cfg a)
    err

def doesRelayBelongToAccount (cfg : LoginConfig) (a : LoginAttempt) : Login Unit :=
  if !a.hexIdSigned then throw (.exception "fingerprint doesn't match") else updateDb cfg a

def doesAccountExistAndDoPasswordsMatch (cfg : LoginConfig) (a : LoginAttempt) : Login Unit :=
  match cfg.account with
  | some (dbPw, balance) =>
    if dbPw ≠ cfg.formatAuth a.password then
      generateTimeout cfg a
    else do
      modify fun s => { s with balance }
      doesRelayBelongToAccount cfg a
  | none => generateTimeout cfg a

def getPasswordFromDb (cfg : LoginConfig) (a : LoginAttempt) : Login Unit :=
  rescue (doesAccountExistAndDoPasswordsMatch cfg a) err

def loginTimeoutKnown (cfg : LoginConfig) (a : LoginAttempt) (results : List BadLogin) : Login Unit :=
  match results with
  | row :: _ => do
    modify fun s => { s with timeout := some row.timeout }
    if a.checkedAt < row.timeout then generateTimeout cfg a else getPasswordFromDb cfg a
  | [] => do
    modify fun s => { s with timeout := none }
    getPasswordFromDb cfg a

def stringReceived (cfg : LoginConfig) (a : LoginAttempt) : Login Unit := do
  modify fun s => { s with successful := true }
  rescue
    (do
      let s ← get
      loginTimeoutKnown cfg a (activeRows s.badlogin))
    err

/-- A new connection to the server. -/
def connect (rows : List BadLogin) : LoginServer where
  badlogin := rows
  successful := false
  timeout := none
  balance := 0
  replies := []

/-! ### What one attempt does -/

/-- The table is `rows`, and one more reply was sent. -/
def Answers (rows : List BadLogin) (s t : LoginServer) : Prop :=
  t.badlogin = rows ∧ ∃ r, t.replies = s.replies ++ [r]

/-- Moreover the reply grants nothing. -/
def Denies (rows : List BadLogin) (s t : LoginServer) : Prop :=
  t.badlogin = rows ∧ ∃ r, (∀ msg, r ≠ .granted msg) ∧ t.replies = s.replies ++ [r]

theorem Denies.answers {rows : List BadLogin} {s t : LoginServer} (h : Denies rows s t) : Answers rows s t := by
  obtain ⟨hrows, r, -, hreplies⟩ := h
  exact ⟨hrows, r, hreplies⟩

theorem err_denies (s : LoginServer) : Outcome err s (fun _ t => Denies s.badlogin s t) fun _ _ => False := by
  refine ⟨rfl, .error, fun msg h => ?_, rfl⟩
  cases h

variable (cfg : LoginConfig) (a : LoginAttempt) {s : LoginServer}

/-- A reply is sent, or packing it raises before anything has changed. -/
theorem generateReply_answers (s : LoginServer) :
    Outcome (generateReply cfg a) s
      (fun _ t => Answers s.badlogin s t ∧ (s.successful = false → Denies s.badlogin s t)) fun _ t => t = s := by
  unfold generateReply
  rw [outcome_bind, outcome_get, outcome_ite]
  split
  · rename_i hsuccessful
    refine outcome_bind_attempt (fun head => ?_) fun _ => rfl
    refine ⟨⟨rfl, _, rfl⟩, fun hfalse => ?_⟩
    rw [hsuccessful] at hfalse
    cases hfalse
  · cases htimeout : s.timeout with
    | none => rfl
    | some timeout =>
      refine outcome_bind_attempt (fun head => ?_) fun _ => rfl
      refine ⟨⟨rfl, _, rfl⟩, fun _ => ⟨rfl, _, fun msg h => ?_, rfl⟩⟩
      cases h

/-- A reply, where what raises is answered with an error. -/
theorem generateReply_rescued (s : LoginServer) :
    Outcome (rescue (generateReply cfg a) err) s
      (fun _ t => Answers s.badlogin s t ∧ (s.successful = false → Denies s.badlogin s t)) fun _ _ => False := by
  rw [outcome_rescue]
  refine (generateReply_answers cfg a s).mono (fun _ _ h => h) ?_
  rintro _ t rfl
  exact (err_denies t).mono (fun _ _ h => ⟨h.answers, fun _ => h⟩) fun _ _ h => h

/-- A timeout that was found is reported again, whether it is running or not. -/
theorem generateTimeout_truthy (h : truthy s.timeout = true) :
    Outcome (generateTimeout cfg a) s (fun _ t => Denies s.badlogin s t)
      fun _ t => t.badlogin = s.badlogin ∧ t.replies = s.replies := by
  unfold generateTimeout
  rw [outcome_bind, outcome_modify, outcome_bind, outcome_get, outcome_ite, if_pos h]
  refine (generateReply_answers cfg a _).mono (fun _ _ h => h.2 rfl) ?_
  rintro _ t rfl
  exact ⟨rfl, rfl⟩

theorem generateTimeout_first (htimeout : s.timeout = none) (hrows : activeRows s.badlogin = []) :
    Outcome (generateTimeout cfg a) s
      (fun _ t => Denies (s.badlogin ++ [{ escalation := 0, timeout := a.flushedAt, active := true }]) s t)
      fun _ _ => False := by
  unfold generateTimeout
  rw [outcome_bind, outcome_modify, outcome_bind, outcome_get, outcome_ite, if_neg (by simp [htimeout, truthy]),
    outcome_rescue, outcome_bind, outcome_get, hrows, outcome_bind, flushTimeoutToDb, outcome_modify]
  have hreply := generateReply_rescued cfg a { s with
    successful := false
    badlogin := s.badlogin ++ [{ escalation := 0, timeout := a.flushedAt, active := true }]
    timeout := some a.flushedAt }
  rw [outcome_rescue] at hreply
  exact hreply.mono (fun _ _ h => h.2 rfl) fun _ _ h => h.mono (fun _ _ h => h.2 rfl) fun _ _ h => h

/-- The update of a row fails, and the client gets an error. -/
theorem generateTimeout_again {row : BadLogin} {rows : List BadLogin} (htimeout : truthy s.timeout = false)
    (hrows : activeRows s.badlogin = row :: rows) :
    Outcome (generateTimeout cfg a) s (fun _ t => Denies s.badlogin s t) fun _ _ => False := by
  unfold generateTimeout
  rw [outcome_bind, outcome_modify, outcome_bind, outcome_get, outcome_ite, if_neg (by simp [htimeout]),
    outcome_rescue, outcome_bind, outcome_get, hrows, outcome_bind, flushTimeoutToDb, outcome_throw]
  exact err_denies _

/-- The table once the right password has come. -/
def deactivated (timeout : Option Nat) (rows : List BadLogin) : List BadLogin :=
  if truthy timeout then rows.map fun row => { row with active := false } else rows

theorem updateDb_answers (s : LoginServer) :
    Outcome (updateDb cfg a) s (fun _ t => Answers (deactivated s.timeout s.badlogin) s t) fun _ _ => False := by
  unfold updateDb
  rw [outcome_rescue, outcome_bind, updateDb1, outcome_bind, outcome_get, outcome_when]
  unfold deactivated
  split
  · rw [outcome_modify]
    have hreply := generateReply_rescued cfg a { s with
      badlogin := s.badlogin.map fun row => { row with active := false } }
    rw [outcome_rescue] at hreply
    exact hreply.mono (fun _ _ h => h.1) fun _ _ h => h.mono (fun _ _ h => h.1) fun _ _ h => h
  · have hreply := generateReply_rescued cfg a s
    rw [outcome_rescue] at hreply
    exact hreply.mono (fun _ _ h => h.1) fun _ _ h => h.mono (fun _ _ h => h.1) fun _ _ h => h

/-- What an attempt with the right password does, when no timeout is running. -/
theorem getPasswordFromDb_right (h : cfg.right a.password = true) (s : LoginServer) :
    Outcome (getPasswordFromDb cfg a) s
      (fun _ t => Answers (if a.hexIdSigned then deactivated s.timeout s.badlogin else s.badlogin) s t)
      fun _ _ => False := by
  obtain ⟨⟨dbPw, balance⟩, haccount, hright⟩ := (Option.any_eq_true _ _).mp h
  have hright := of_decide_eq_true hright
  unfold getPasswordFromDb doesAccountExistAndDoPasswordsMatch
  rw [haccount, outcome_rescue]
  dsimp only
  rw [outcome_ite, if_neg (not_not_intro hright), outcome_bind, outcome_modify]
  unfold doesRelayBelongToAccount
  cases hsigned : a.hexIdSigned with
  | true =>
    rw [outcome_ite, if_neg (by decide), if_pos rfl]
    have hupdate := updateDb_answers cfg a { s with balance }
    exact hupdate.mono (fun _ _ h => h) fun _ _ h => h.elim
  | false =>
    rw [outcome_ite, if_pos (by decide), outcome_throw, if_neg (by decide)]
    exact (err_denies _).mono (fun _ _ h => h.answers) fun _ _ h => h

/-- An attempt with a wrong password, or for no account, is given a timeout. -/
theorem getPasswordFromDb_wrong {rows : List BadLogin} (h : cfg.right a.password = false)
    (htimeout : Outcome (generateTimeout cfg a) s (fun _ t => Denies rows s t)
      fun _ t => t.badlogin = rows ∧ t.replies = s.replies) :
    Outcome (getPasswordFromDb cfg a) s (fun _ t => Denies rows s t) fun _ _ => False := by
  have hwrong : doesAccountExistAndDoPasswordsMatch cfg a = generateTimeout cfg a := by
    unfold doesAccountExistAndDoPasswordsMatch
    cases haccount : cfg.account with
    | none => rfl
    | some account =>
      obtain ⟨dbPw, balance⟩ := account
      have hne : dbPw ≠ cfg.formatAuth a.password := by
        simpa [LoginConfig.right, haccount] using h
      dsimp only
      rw [if_pos hne]
  unfold getPasswordFromDb
  rw [hwrong, outcome_rescue]
  refine htimeout.mono (fun _ _ h => h) ?_
  rintro _ t ⟨hrows, hreplies⟩
  refine (err_denies t).mono ?_ fun _ _ h => h
  rintro _ u ⟨hrows', r, hdenied, hreplies'⟩
  exact ⟨hrows'.trans hrows, r, hdenied, by rw [hreplies', hreplies]⟩

/-- The table after an attempt. -/
def afterAttempt (rows : List BadLogin) : List BadLogin :=
  match activeRows rows with
  | [] =>
    if cfg.right a.password then rows
    else rows ++ [{ escalation := 0, timeout := a.flushedAt, active := true }]
  | row :: _ =>
    if cfg.right a.password ∧ a.hexIdSigned ∧ row.timeout ≤ a.checkedAt then
      deactivated (some row.timeout) rows
    else rows

/-- The attempt got one reply, which grants nothing while a timeout is running. -/
def Attempted (rows : List BadLogin) (t : LoginServer) : Prop :=
  t.badlogin = afterAttempt cfg a rows ∧ ∃ r, t.replies = [r] ∧
    ((∃ row ∈ (activeRows rows).head?, a.checkedAt < row.timeout) → ∀ msg, r ≠ .granted msg)

theorem Denies.attempted {rows table : List BadLogin} {s t : LoginServer} (h : Denies table s t) (hempty : s.replies = [])
    (htable : table = afterAttempt cfg a rows) : Attempted cfg a rows t := by
  obtain ⟨hrows, r, hdenied, hreplies⟩ := h
  rw [hempty] at hreplies
  exact ⟨hrows.trans htable, r, hreplies, fun _ => hdenied⟩

/-- An attempt that no active row stands against. -/
theorem loginTimeoutKnown_first {rows : List BadLogin} (hrows : activeRows rows = []) :
    Outcome (loginTimeoutKnown cfg a []) { connect rows with successful := true } (fun _ t => Attempted cfg a rows t)
      fun _ _ => False := by
  unfold loginTimeoutKnown
  dsimp only
  rw [outcome_bind, outcome_modify]
  cases hright : cfg.right a.password with
  | true =>
    have hafter : afterAttempt cfg a rows = rows := by simp [afterAttempt, hrows, hright]
    have hanswers := getPasswordFromDb_right cfg a hright { connect rows with successful := true, timeout := none }
    refine hanswers.mono ?_ fun _ _ h => h.elim
    rintro _ t ⟨htable, r, hreplies⟩
    refine ⟨?_, r, hreplies, ?_⟩
    · rw [htable, hafter]
      exact ite_self rows
    · rintro ⟨row, hrow, -⟩
      rw [hrows] at hrow
      cases hrow
  | false =>
    have hafter : afterAttempt cfg a rows =
        rows ++ [{ escalation := 0, timeout := a.flushedAt, active := true }] := by
      simp [afterAttempt, hrows, hright]
    have hfirst := getPasswordFromDb_wrong cfg a hright
      ((generateTimeout_first cfg a (s := { connect rows with successful := true, timeout := none }) rfl hrows).mono
        (fun _ _ h => h) fun _ _ h => h.elim)
    exact hfirst.mono (fun _ t h => h.attempted cfg a rfl hafter.symm) fun _ _ h => h.elim

/-- An attempt while the timeout of the active row is running. What is raised goes to the errback. -/
theorem loginTimeoutKnown_running {rows others : List BadLogin} {row : BadLogin} (hrows : activeRows rows = row :: others)
    (hrunning : a.checkedAt < row.timeout) :
    Outcome (loginTimeoutKnown cfg a (row :: others)) { connect rows with successful := true }
      (fun _ t => Attempted cfg a rows t)
      fun _ t => Outcome err t (fun _ u => Attempted cfg a rows u) fun _ _ => False := by
  have hafter : afterAttempt cfg a rows = rows := by
    simp only [afterAttempt, hrows]
    rw [if_neg (by omega)]
  have htruthy : truthy (some row.timeout) = true := decide_eq_true (by omega)
  unfold loginTimeoutKnown
  dsimp only
  rw [outcome_bind, outcome_modify, outcome_ite, if_pos hrunning]
  refine (generateTimeout_truthy cfg a htruthy).mono (fun _ t h => h.attempted cfg a rfl hafter.symm) ?_
  rintro _ t ⟨htable, hreplies⟩
  exact (err_denies t).mono (fun _ u h => h.attempted cfg a hreplies (htable.trans hafter.symm)) fun _ _ h => h

/-- An attempt after the timeout of the active row. -/
theorem loginTimeoutKnown_expired {rows others : List BadLogin} {row : BadLogin} (hrows : activeRows rows = row :: others)
    (hexpired : ¬a.checkedAt < row.timeout) :
    Outcome (loginTimeoutKnown cfg a (row :: others)) { connect rows with successful := true }
      (fun _ t => Attempted cfg a rows t) fun _ _ => False := by
  unfold loginTimeoutKnown
  dsimp only
  rw [outcome_bind, outcome_modify, outcome_ite, if_neg hexpired]
  cases hright : cfg.right a.password with
  | true =>
    have hanswers := getPasswordFromDb_right cfg a hright
      { connect rows with successful := true, timeout := some row.timeout }
    refine hanswers.mono ?_ fun _ _ h => h.elim
    rintro _ t ⟨htable, r, hreplies⟩
    refine ⟨?_, r, hreplies, ?_⟩
    · rw [htable]
      simp only [afterAttempt, hrows, hright, Nat.not_lt.mp hexpired, true_and, and_true]
      rfl
    · rintro ⟨row', hrow', hrunning⟩
      rw [hrows] at hrow'
      cases hrow'
      exact absurd hrunning hexpired
  | false =>
    have hafter : afterAttempt cfg a rows = rows := by simp [afterAttempt, hrows, hright]
    have htimeout : Outcome (generateTimeout cfg a)
        { connect rows with successful := true, timeout := some row.timeout }
        (fun _ t => Denies rows { connect rows with successful := true, timeout := some row.timeout } t)
        fun _ t => t.badlogin = rows ∧ t.replies = [] := by
      cases htruthy : truthy (some row.timeout) with
      | true => exact generateTimeout_truthy cfg a htruthy
      | false => exact (generateTimeout_again cfg a htruthy hrows).mono (fun _ _ h => h) fun _ _ h => h.elim
    exact (getPasswordFromDb_wrong cfg a hright htimeout).mono (fun _ t h => h.attempted cfg a rfl hafter.symm)
      fun _ _ h => h.elim

theorem stringReceived_spec (rows : List BadLogin) :
    Outcome (stringReceived cfg a) (connect rows) (fun _ t => Attempted cfg a rows t) fun _ _ => False := by
  unfold stringReceived
  rw [outcome_bind, outcome_modify, outcome_rescue, outcome_bind, outcome_get]
  change Outcome (loginTimeoutKnown cfg a (activeRows rows)) { connect rows with successful := true } _ _
  cases hrows : activeRows rows with
  | nil => exact (loginTimeoutKnown_first cfg a hrows).mono (fun _ _ h => h) fun _ _ h => h.elim
  | cons row others =>
    by_cases hrunning : a.checkedAt < row.timeout
    · exact loginTimeoutKnown_running cfg a hrows hrunning
    · exact (loginTimeoutKnown_expired cfg a hrows hrunning).mono (fun _ _ h => h) fun _ _ h => h.elim

end LoginServer

/-! ### Runs -/

/-- An attempt with the timeout that was stored before it and the replies that it got. -/
structure LoginEntry where
  attempt : LoginAttempt
  stored : Option Nat
  replies : List LoginReply

/-- The table, and the attempts so far. -/
structure LoginService where
  badlogin : List BadLogin
  log : List LoginEntry

namespace LoginService

open LoginServer

def new : LoginService where
  badlogin := []
  log := []

def step (cfg : LoginConfig) (s : LoginService) (a : LoginAttempt) : Option LoginService :=
  let t := finish (stringReceived cfg a) (connect s.badlogin)
  some {
    badlogin := t.badlogin
    log := s.log ++
      [{ attempt := a, stored := (activeRows s.badlogin).head?.map BadLogin.timeout, replies := t.replies }] }

/-- The stored timeout was running. -/
def Refused (e : LoginEntry) : Prop := ∃ timeout ∈ e.stored, e.attempt.checkedAt < timeout

instance (e : LoginEntry) : Decidable (Refused e) := inferInstanceAs (Decidable (∃ timeout ∈ _, _))

variable (cfg : LoginConfig)

/-- The failed attempts in a row, less one, and the time of the last of them. An attempt with the
right password and a wrong signature is neither a success nor a failure. -/
def strike (strikes : Option (Nat × Nat)) (e : LoginEntry) : Option (Nat × Nat) :=
  if Refused e then strikes
  else if cfg.right e.attempt.password then
    if e.attempt.hexIdSigned then none else strikes
  else some (strikes.elim 0 fun p => p.1 + 1, e.attempt.flushedAt)

def strikes (log : List LoginEntry) : Option (Nat × Nat) := log.foldl (strike cfg) none

/-- The active rows that there should be. -/
def prescribedRows : Option (Nat × Nat) → List BadLogin
  | none => []
  | some (escalation, last) => [{ escalation, timeout := escalatedTimeout last escalation, active := true }]

/-- The active row counts the failed attempts, attempts are refused while its timeout is running,
and every attempt got one reply. -/
structure Escalates (s : LoginService) : Prop where
  row : activeRows s.badlogin = prescribedRows (strikes cfg s.log)
  refused : ∀ e ∈ s.log, Refused e → ∀ msg, LoginReply.granted msg ∉ e.replies
  answered : ∀ e ∈ s.log, e.replies.length = 1

/-- While a row is active and its timeout is not running, the password is right; and the row's
timeout is not the time 0 when the login succeeds. -/
def Spared (s : LoginService) (a : LoginAttempt) : Prop :=
  ∀ row ∈ activeRows s.badlogin, a.checkedAt < row.timeout ∨
    cfg.right a.password = true ∧ (a.hexIdSigned = true → row.timeout ≠ 0)

instance (s : LoginService) (a : LoginAttempt) : Decidable (Spared cfg s a) :=
  inferInstanceAs (Decidable (∀ row ∈ _, _))

variable {cfg} {s t : LoginService} {a : LoginAttempt}

/-- The table and the entry that a step adds. -/
theorem step_cases (h : step cfg s a = some t) :
    ∃ r : LoginReply, t.badlogin = afterAttempt cfg a s.badlogin ∧
      t.log = s.log ++ [{ attempt := a, stored := (activeRows s.badlogin).head?.map BadLogin.timeout, replies := [r] }] ∧
      ((∃ row ∈ (activeRows s.badlogin).head?, a.checkedAt < row.timeout) → ∀ msg, r ≠ .granted msg) := by
  cases h
  have hspec := (outcome_finish (I := fun t : LoginServer => t.badlogin = afterAttempt cfg a s.badlogin ∧
    ∃ r, t.replies = [r] ∧
      ((∃ row ∈ (activeRows s.badlogin).head?, a.checkedAt < row.timeout) → ∀ msg, r ≠ .granted msg))).mp
    ((stringReceived_spec cfg a s.badlogin).mono (fun _ _ h => h) fun _ _ h => h.elim)
  obtain ⟨htable, r, hreplies, hrefused⟩ := hspec
  refine ⟨r, htable, ?_, hrefused⟩
  dsimp only
  rw [hreplies]

theorem refused_iff (rows : List BadLogin) (a : LoginAttempt) (replies : List LoginReply) :
    Refused { attempt := a, stored := rows.head?.map BadLogin.timeout, replies } ↔
      ∃ row ∈ rows.head?, a.checkedAt < row.timeout := by
  unfold Refused
  cases rows with
  | nil => simp
  | cons row rows => simp

/-- The two parts that hold in any case are kept by every step. -/
theorem answered_step (hs : Escalates cfg s) (h : step cfg s a = some t) :
    (∀ e ∈ t.log, Refused e → ∀ msg, LoginReply.granted msg ∉ e.replies) ∧
      ∀ e ∈ t.log, e.replies.length = 1 := by
  obtain ⟨r, -, hlog, hdenied⟩ := step_cases h
  rw [hlog]
  constructor
  · intro e he hrefused msg hmsg
    rcases List.mem_append.mp he with he | he
    · exact hs.refused e he hrefused msg hmsg
    · rw [List.mem_singleton.mp he] at hrefused hmsg
      have hgranted := List.mem_singleton.mp hmsg
      exact hdenied ((refused_iff _ _ _).mp hrefused) msg hgranted.symm
  · intro e he
    rcases List.mem_append.mp he with he | he
    · exact hs.answered e he
    · rw [List.mem_singleton.mp he]
      rfl

theorem activeRows_deactivated (rows : List BadLogin) {timeout : Nat} (h : timeout ≠ 0) :
    activeRows (deactivated (some timeout) rows) = [] := by
  unfold deactivated activeRows
  rw [if_pos (by simpa [truthy] using h)]
  apply List.filter_eq_nil_iff.mpr
  intro row hrow
  obtain ⟨row', -, rfl⟩ := List.mem_map.mp hrow
  exact Bool.false_ne_true

/-- The active row after a step is the one prescribed exactly when the step is spared. -/
theorem row_step (hs : Escalates cfg s) (h : step cfg s a = some t) :
    activeRows t.badlogin = prescribedRows (strikes cfg t.log) ↔ Spared cfg s a := by
  obtain ⟨r, htable, hlog, -⟩ := step_cases h
  have hrow := hs.row
  have hstrikes : strikes cfg t.log = strike cfg (strikes cfg s.log)
      { attempt := a, stored := (activeRows s.badlogin).head?.map BadLogin.timeout, replies := [r] } := by
    rw [strikes, hlog, List.foldl_append]
    rfl
  rw [htable, hstrikes]
  unfold Spared
  simp only [strike, refused_iff]
  cases hbefore : strikes cfg s.log with
  | none =>
    rw [hbefore, prescribedRows] at hrow
    -- No attempt has failed yet, so that nothing can go wrong.
    refine iff_of_true ?_ fun row hrow' => ?_
    · have hnone : ¬∃ row ∈ ([] : List BadLogin).head?, a.checkedAt < row.timeout := by simp
      rw [afterAttempt, hrow, if_neg hnone]
      cases cfg.right a.password with
      | true =>
        rw [if_pos rfl, if_pos rfl, hrow, ite_self]
        rfl
      | false =>
        rw [if_neg Bool.false_ne_true, if_neg Bool.false_ne_true, activeRows, List.filter_append, ← activeRows, hrow]
        rfl
    · rw [hrow] at hrow'
      cases hrow'
  | some p =>
    obtain ⟨escalation, last⟩ := p
    rw [hbefore, prescribedRows] at hrow
    rw [afterAttempt, hrow]
    simp only [List.head?_cons, Option.mem_some_iff, exists_eq_left', List.forall_mem_singleton]
    by_cases hrunning : a.checkedAt < escalatedTimeout last escalation
    · rw [if_neg (by omega), if_pos hrunning, hrow]
      exact iff_of_true rfl (Or.inl hrunning)
    · rw [if_neg hrunning]
      cases hright : cfg.right a.password with
      | false =>
        rw [if_neg (by simp), hrow]
        refine iff_of_false (fun h => ?_) (by simp [hrunning])
        simp [prescribedRows] at h
      | true =>
        cases hsigned : a.hexIdSigned with
        | false =>
          rw [if_neg (by simp), hrow]
          exact iff_of_true rfl (by simp)
        | true =>
          rw [if_pos ⟨rfl, rfl, Nat.not_lt.mp hrunning⟩]
          by_cases hzero : escalatedTimeout last escalation = 0
          · refine iff_of_false (fun h => ?_) (by simp [hzero])
            rw [hzero, deactivated, if_neg (by decide), hrow] at h
            cases h
          · rw [activeRows_deactivated _ hzero]
            exact iff_of_true rfl (by simp [hzero])

/-- A second failure in a row is not counted: in every sequence of attempts, the lockout works
after each of them exactly when no wrong password comes while a row is active whose timeout is not
running. -/
theorem login_lockout_escalates (cfg : LoginConfig) {as : List LoginAttempt} {s : LoginService}
    (h : Run (step cfg) (fun _ _ => True) new as s) :
    (∀ start t, start <+: as → Run (step cfg) (fun _ _ => True) new start t → Escalates cfg t) ↔
      EachStep (step cfg) (Spared cfg) new as := by
  have hnew : Escalates cfg new := ⟨rfl, fun e he => (by cases he), fun e he => (by cases he)⟩
  refine h.forall_prefix_iff (I := Escalates cfg) (fun h => h) ?_ ?_ hnew
  · intro s t a hs hstep hspared
    obtain ⟨hrefused, hanswered⟩ := answered_step hs hstep
    exact ⟨(row_step hs hstep).mpr hspared, hrefused, hanswered⟩
  · intro s t a hs hstep ht
    exact (row_step hs hstep).mp ht.row

/-- An account whose password is the byte 1, with passwords stored as they are. -/
def exampleConfig : LoginConfig where
  account := some ([1], 5)
  formatAuth := id
  host := [174, 129, 199, 15]
  port := 10001

/-- An attempt within one second. -/
def exampleAttempt (password : Bytes) (time : Nat) : LoginAttempt where
  password := password
  hexIdSigned := true
  checkedAt := time
  flushedAt := time
  authBlob := []
  interval := 1
  curExp := 60
  nextExp := 120

/-- A failure, a success and another failure. -/
theorem login_lockout_escalates_after_success :
    ∃ s, Run (step exampleConfig) (fun _ _ => True) new
        [exampleAttempt [0] 10, exampleAttempt [1] 11, exampleAttempt [0] 12] s ∧
      ∀ start t, start <+: [exampleAttempt [0] 10, exampleAttempt [1] 11, exampleAttempt [0] 12] →
        Run (step exampleConfig) (fun _ _ => True) new start t → Escalates exampleConfig t := by
  have hend : (exec (step exampleConfig) new
      [exampleAttempt [0] 10, exampleAttempt [1] 11, exampleAttempt [0] 12]).any (fun _ => true) = true := by
    decide
  obtain ⟨s, hrun, -⟩ := exists_run hend (eachStep_true _ _)
  have hspared : EachStep (step exampleConfig) (Spared exampleConfig) new
      [exampleAttempt [0] 10, exampleAttempt [1] 11, exampleAttempt [0] 12] := by
    decide
  exact ⟨s, hrun, (login_lockout_escalates exampleConfig hrun).mpr hspared⟩

/-- However often the password is guessed, the escalation stays 0: after the second guess it should
be 1 and the timeout 11. -/
theorem second_guess_not_counted :
    ∃ s, Run (step exampleConfig) (fun _ _ => True) new [exampleAttempt [0] 10, exampleAttempt [0] 11] s ∧
      s.badlogin = [{ escalation := 0, timeout := 10, active := true }] ∧ ¬Escalates exampleConfig s := by
  have hend : (exec (step exampleConfig) new [exampleAttempt [0] 10, exampleAttempt [0] 11]).any (fun s =>
      decide (s.badlogin = [{ escalation := 0, timeout := 10, active := true }] ∧
        activeRows s.badlogin ≠ prescribedRows (strikes exampleConfig s.log))) = true := by
    decide
  obtain ⟨s, hrun, hdecide⟩ := exists_run hend (eachStep_true _ _)
  obtain ⟨hrow, hne⟩ := of_decide_eq_true hdecide
  exact ⟨s, hrun, hrow, fun h => hne h.row⟩

end LoginService

end BitBlinder.Bank
