import BitBlinder.Basic
import BitBlinder.Runs

/-!
# Accounts for invited users

`AccountCreation.py` and the trigger in `account_functions.sql`. The requests have the
numbers in which they came; each of them has at most one statement for the database,
or several secondary tasks, under way. A statement is executed and its callback is run
in one step. Of the rows that a `SELECT` finds, any may come first. The fields after
`stage` record what happened to a request, and no function reads them: the time of the
cache entry that was found for it, the row of its invite, and whether an account was
inserted. Times are seconds.
-/

namespace BitBlinder.Bank

set_option autoImplicit false
set_option maxRecDepth 2048

open Struct

def STARTING_BALANCE : Nat := 1000
def CACHE_ENTRY_LIFETIME : Int := 60 * 60 * 24 * 7

/-- `RESPONSE_CODES`. -/
inductive CreationCode where
  | success
  | badUsername
  | badPassword
  | badEmail
  | usernameTaken
  | unknownError
  deriving DecidableEq

def CreationCode.code : CreationCode → Nat
  | .success => 0
  | .badUsername => 1
  | .badPassword => 2
  | .badEmail => 3
  | .usernameTaken => 4
  | .unknownError => 5

/-- The regular expressions for the input, and the digest of a user name and a password. -/
structure CreationRules where
  usernameRegex : Bytes → Bool
  passwordRegex : Bytes → Bool
  emailRegex : Bytes → Bool
  formatAuth : Bytes → Bytes → Bytes

/-! ### The tables -/

/-- A row of `email_signup_keys`; an address may be `NULL`. -/
structure SignupKey where
  value : Bytes
  email : Option Bytes
  redeemed : Bool

/-- A row of `download_id_cache`. -/
structure DownloadId where
  hexkey : Bytes
  eventtime : Option Int
  address : Bytes

structure NewAccount where
  username : Bytes
  balance : Nat
  email : Option Bytes
  time : Int
  password : Bytes

structure SignupTables where
  emailSignupKeys : List SignupKey
  downloadIdCache : List DownloadId
  accounts : List NewAccount
  mailingList : List (Option Bytes × Int)

namespace SignupTables

/-- What the `INSERT` of an account comes to: the name is returned, or no row, or there is an
`IntegrityError`. -/
inductive Inserted where
  | row
  | none
  | integrityError

/-- `safe_insert_new_user`; an address that is `NULL` is equal to none. -/
def emailTaken (db : SignupTables) (email : Option Bytes) : Bool :=
  email.any fun address => db.accounts.any fun a => a.email = some address

def insertAccount (account : NewAccount) (db : SignupTables) : SignupTables × Inserted :=
  if db.emailTaken account.email then (db, .none)
  else if db.accounts.any fun a => a.username = account.username then (db, .integrityError)
  else ({ db with accounts := db.accounts ++ [account] }, .row)

/-- `UPDATE email_signup_keys SET redeemed = true WHERE value = …`. -/
def redeem (value : Bytes) (db : SignupTables) : SignupTables :=
  { db with emailSignupKeys := db.emailSignupKeys.map fun k => if k.value = value then { k with redeemed := true } else k }

/-- The first column is unique. -/
def addToMailingList (email : Option Bytes) (time : Int) (db : SignupTables) : SignupTables :=
  if db.mailingList.any fun m => m.1 = email then db else { db with mailingList := db.mailingList ++ [(email, time)] }

end SignupTables

/-- What a `SELECT` returns first: the row with the number, or nothing where no row is found. -/
def firstRow {α : Type} (rows : List α) (p : α → Bool) : Option Nat → Option (Option α)
  | some k => (rows[k]?.filter p).map some
  | none => if rows.any p then none else some none

/-! ### A request -/

inductive SecondaryTask where
  | phpbb3
  | redeem
  | mailingList
  deriving DecidableEq

/-- What the request waits for, and its reply. -/
inductive CreationStage where
  | cacheLookup
  | inviteByEmail
  | inviteByValue (hexKey : Bytes)
  | inserting
  | finishing (pending : List SecondaryTask)
  | replied (code : CreationCode)
  deriving DecidableEq

/-- The invite is looked up by the key of a cache entry. -/
def CreationStage.byCache : CreationStage → Bool
  | .inviteByValue _ => true
  | _ => false

structure CreationRequest where
  ipAddress : Bytes
  curTime : Int
  username : Bytes
  password : Bytes
  email : Option Bytes
  shouldAddToMailingList : Bool
  hexKey : Option Bytes
  saltedPassword : Bytes
  stage : CreationStage
  cacheTime : Option Int
  row : Option Nat
  created : Bool

namespace CreationRequest

/-- `replace('\x00', '')`. -/
def stripNulls (bs : Bytes) : Bytes := bs.filter fun b => b ≠ 0

/-- `lower()`. -/
def lower (bs : Bytes) : Bytes := bs.map fun b => if 65 ≤ b ∧ b ≤ 90 then b + 32 else b

def reply (code : CreationCode) (r : CreationRequest) : CreationRequest := { r with stage := .replied code }

/-- `_start`. -/
def start (rules : CreationRules) (r : CreationRequest) (email : Bytes) : CreationRequest :=
  if !rules.usernameRegex r.username then r.reply .badUsername
  else if !rules.passwordRegex r.password then r.reply .badPassword
  else if email = [] then { r with stage := .cacheLookup }
  else if !rules.emailRegex email then r.reply .badEmail
  else { r with stage := .inviteByEmail }

/-- `__init__`, which fails on data of another length. -/
def make (rules : CreationRules) (data ipAddress : Bytes) (curTime : Int) : Option CreationRequest :=
  if data.length = calcsize [.s 50, .s 50, .s 150, .B] then
    let (username, password, email, shouldAddToMailingList, _) := Struct.unpack [.s 50, .s 50, .s 150, .B] data
    let email := lower (stripNulls email)
    some (start rules
      { ipAddress := ipAddress
        curTime := curTime
        username := stripNulls username
        password := stripNulls password
        email := some email
        shouldAddToMailingList := shouldAddToMailingList = 1
        hexKey := none
        saltedPassword := []
        stage := .replied .unknownError
        cacheTime := none
        row := none
        created := false } email)
  else none

/-- `_on_learned_hexkey`; an entry without a time raises. -/
def onLearnedHexkey (result : Option DownloadId) (r : CreationRequest) : CreationRequest :=
  match result with
  | none => r.reply .badEmail
  | some entry =>
    match entry.eventtime with
    | none => r.reply .unknownError
    | some eventTime =>
      let r := { r with cacheTime := some eventTime }
      if eventTime - r.curTime > CACHE_ENTRY_LIFETIME then r.reply .badEmail
      else { r with stage := .inviteByValue entry.hexkey }

/-- `_on_learned_invite`; `k` is the number of the row. -/
def onLearnedInvite (rules : CreationRules) (k : Option Nat) (result : Option SignupKey) (r : CreationRequest) :
    CreationRequest :=
  match result with
  | none => r.reply .badEmail
  | some invite =>
    { r with
      hexKey := some invite.value
      email := invite.email
      saltedPassword := rules.formatAuth r.username r.password
      stage := .inserting
      row := k }

def account (r : CreationRequest) : NewAccount where
  username := r.username
  balance := STARTING_BALANCE
  email := r.email
  time := r.curTime
  password := r.saltedPassword

/-- `_on_account_creation_succeeded` and `_on_account_creation_failed`. Without an address the arguments
of the script raise, before the invite is marked. -/
def onAccountInserted (result : SignupTables.Inserted) (r : CreationRequest) : CreationRequest :=
  match result with
  | .integrityError => r.reply .usernameTaken
  | .none => r.reply .badEmail
  | .row =>
    let r := { r with created := true }
    match r.email with
    | none => r.reply .unknownError
    | some _ =>
      { r with
        stage := .finishing ([.phpbb3, .redeem] ++ if r.shouldAddToMailingList then [.mailingList] else []) }

/-- The statement that the request waits for is executed; `k` is the row that a `SELECT` returns first. -/
def execute (rules : CreationRules) (k : Option Nat) (db : SignupTables) (r : CreationRequest) :
    Option (SignupTables × CreationRequest) :=
  match r.stage with
  | .cacheLookup =>
    (firstRow db.downloadIdCache (fun e => e.address = r.ipAddress) k).map fun result => (db, r.onLearnedHexkey result)
  | .inviteByEmail =>
    (firstRow db.emailSignupKeys (fun i => !i.redeemed && i.email.isSome && i.email = r.email) k).map fun result =>
      (db, r.onLearnedInvite rules k result)
  | .inviteByValue hexKey =>
    (firstRow db.emailSignupKeys (fun i => !i.redeemed && i.value = hexKey) k).map fun result =>
      (db, r.onLearnedInvite rules k result)
  | .inserting =>
    let (db, result) := db.insertAccount r.account
    some (db, r.onAccountInserted result)
  | .finishing _ | .replied _ => none

/-- The statement fails. -/
def fail (r : CreationRequest) : Option CreationRequest :=
  match r.stage with
  | .cacheLookup | .inviteByEmail | .inviteByValue _ | .inserting => some (r.reply .unknownError)
  | .finishing _ | .replied _ => none

/-- A secondary task ends, of which failures are only logged. -/
def finish (task : SecondaryTask) (failed : Bool) (db : SignupTables) (r : CreationRequest) :
    Option (SignupTables × CreationRequest) :=
  match r.stage with
  | .finishing pending =>
    if task ∈ pending then
      let db := if failed then db else
        match task with
        | .phpbb3 => db
        | .redeem => (r.hexKey.map fun hexKey => db.redeem hexKey).getD db
        | .mailingList => db.addToMailingList r.email r.curTime
      let pending := pending.erase task
      some (db, if pending = [] then r.reply .success else { r with stage := .finishing pending })
    else none
  | _ => none

end CreationRequest

/-! ### The requests together -/

structure SignupServer where
  db : SignupTables
  requests : List CreationRequest

namespace SignupServer

inductive Event where
  | receive (data ipAddress : Bytes) (curTime : Int)
  | execute (j : Nat) (k : Option Nat)
  | fail (j : Nat)
  | finish (j : Nat) (task : SecondaryTask) (failed : Bool)

/-- The request with a number takes a step. -/
def advance (j : Nat) (f : SignupTables → CreationRequest → Option (SignupTables × CreationRequest)) (s : SignupServer) :
    Option SignupServer :=
  s.requests[j]?.bind fun r => (f s.db r).map fun (db, r') => { db, requests := s.requests.set j r' }

def step (rules : CreationRules) (s : SignupServer) : Event → Option SignupServer
  | .receive data ipAddress curTime =>
    (CreationRequest.make rules data ipAddress curTime).map fun r => { s with requests := s.requests ++ [r] }
  | .execute j k => s.advance j fun db r => r.execute rules k db
  | .fail j => s.advance j fun db r => r.fail.map fun r => (db, r)
  | .finish j task failed => s.advance j fun db r => r.finish task failed db

def start (db : SignupTables) : SignupServer where
  db := db
  requests := []

/-- A row of `email_signup_keys` leads to one success, and an invite that was found through the cache was
found by an entry that is recent enough. -/
structure OneAccountPerInvite (s : SignupServer) : Prop where
  once : ∀ (i j : Nat) (r r' : CreationRequest) (k : Nat), s.requests[i]? = some r → s.requests[j]? = some r' →
    r.stage = .replied .success → r'.stage = .replied .success → r.row = some k → r'.row = some k → i = j
  recent : ∀ r ∈ s.requests, r.row ≠ none → ∀ eventTime ∈ r.cacheTime, r.curTime - eventTime ≤ CACHE_ENTRY_LIFETIME

/-- When an invite is found by the key of a cache entry, the entry is recent enough. -/
def FindsRecent (s : SignupServer) : Event → Prop
  | .execute j (some _) => ∀ r ∈ s.requests[j]?, r.stage.byCache = true →
      ∀ eventTime ∈ r.cacheTime, r.curTime - eventTime ≤ CACHE_ENTRY_LIFETIME
  | _ => True

instance (s : SignupServer) : ∀ e, Decidable (s.FindsRecent e)
  | .execute _ (some _) => inferInstanceAs (Decidable (∀ r ∈ _, _ → _))
  | .execute _ none | .receive .. | .fail _ | .finish .. => isTrue trivial

end SignupServer

/-! ### What a request does to the tables -/

/-- No invite and no account is lost, and no invite changes its address. -/
structure SignupTables.Grown (db db' : SignupTables) : Prop where
  accounts : ∀ a ∈ db.accounts, a ∈ db'.accounts
  emails : db'.emailSignupKeys.map SignupKey.email = db.emailSignupKeys.map SignupKey.email

namespace CreationRequest

variable {rules : CreationRules} {db db' : SignupTables} {r r' : CreationRequest}

theorem grown_refl (db : SignupTables) : db.Grown db := ⟨fun _ h => h, rfl⟩

theorem grown_redeem (value : Bytes) (db : SignupTables) : db.Grown (db.redeem value) := by
  refine ⟨fun _ h => h, ?_⟩
  simp only [SignupTables.redeem, List.map_map]
  apply List.map_congr_left
  intro k _
  simp only [Function.comp_apply]
  split <;> rfl

theorem grown_addToMailingList (email : Option Bytes) (time : Int) (db : SignupTables) :
    db.Grown (db.addToMailingList email time) := by
  unfold SignupTables.addToMailingList
  split <;> exact ⟨fun _ h => h, rfl⟩

/-- What the fields of a request say about it and the tables. -/
structure Recorded (db : SignupTables) (r : CreationRequest) : Prop where
  searching : r.stage = .cacheLookup ∨ r.stage = .inviteByEmail ∨ r.stage.byCache = true →
    r.row = none ∧ r.created = false
  byEmail : r.stage = .inviteByEmail → r.cacheTime = none
  inserting : r.stage = .inserting → r.created = false
  finishing : ∀ pending, r.stage = .finishing pending → r.created = true ∧ r.email ≠ none
  success : r.stage = .replied .success → r.created = true ∧ r.email ≠ none
  account : r.created = true → ∀ e ∈ r.email, ∃ a ∈ db.accounts, a.email = some e
  row : ∀ k ∈ r.row, (db.emailSignupKeys.map SignupKey.email)[k]? = some r.email

theorem Recorded.mono (h : Recorded db r) (hgrown : db.Grown db') : Recorded db' r := by
  refine ⟨h.searching, h.byEmail, h.inserting, h.finishing, h.success, fun hcreated e he => ?_, ?_⟩
  · obtain ⟨a, ha, heq⟩ := h.account hcreated e he
    exact ⟨a, hgrown.accounts a ha, heq⟩
  · rw [hgrown.emails]
    exact h.row

/-- A reply other than the one of success asks for nothing more than the account and the row. -/
theorem recorded_reply {code : CreationCode} (hcode : code ≠ .success)
    (haccount : r.created = true → ∀ e ∈ r.email, ∃ a ∈ db.accounts, a.email = some e)
    (hrow : ∀ k ∈ r.row, (db.emailSignupKeys.map SignupKey.email)[k]? = some r.email) : Recorded db (r.reply code) := by
  refine ⟨?_, ?_, ?_, ?_, ?_, haccount, hrow⟩
  · rintro (heq | heq | heq) <;> cases heq
  · exact fun heq => by cases heq
  · exact fun heq => by cases heq
  · exact fun pending heq => by cases heq
  · intro heq
    cases heq
    exact absurd rfl hcode

theorem Recorded.reply {code : CreationCode} (h : Recorded db r) (hcode : code ≠ .success) : Recorded db (r.reply code) :=
  recorded_reply hcode h.account h.row

/-- Once the account is there, the secondary tasks and the reply change nothing else. -/
theorem Recorded.later {stage : CreationStage} (h : Recorded db r) (hcreated : r.created = true) (hemail : r.email ≠ none)
    (hlate : stage = .replied .success ∨ ∃ left, stage = .finishing left) : Recorded db { r with stage := stage } := by
  refine ⟨?_, ?_, ?_, fun _ _ => ⟨hcreated, hemail⟩, fun _ => ⟨hcreated, hemail⟩, h.account, h.row⟩
  all_goals rcases hlate with rfl | ⟨left, rfl⟩
  · rintro (heq | heq | heq) <;> cases heq
  · rintro (heq | heq | heq) <;> cases heq
  all_goals exact fun heq => by cases heq

/-- An invite that was found through the cache was found by an entry that is recent enough. -/
def Recent (r : CreationRequest) : Prop :=
  r.row ≠ none → ∀ eventTime ∈ r.cacheTime, r.curTime - eventTime ≤ CACHE_ENTRY_LIFETIME

/-- What a step of a request does: it is as well recorded as before, and the account that it inserts has an
address that no account had. -/
structure Advances (db : SignupTables) (r : CreationRequest) (db' : SignupTables) (r' : CreationRequest) : Prop where
  grown : db.Grown db'
  recorded : Recorded db' r'
  creates : r'.created = true → r.created = true ∧ r'.email = r.email ∨
    ∀ e ∈ r'.email, ∀ a ∈ db.accounts, a.email ≠ some e

theorem onLearnedHexkey_recorded (h : Recorded db r) (hrow : r.row = none) (hcreated : r.created = false)
    (result : Option DownloadId) : Recorded db (r.onLearnedHexkey result) ∧ (r.onLearnedHexkey result).row = none ∧
      (r.onLearnedHexkey result).created = false := by
  unfold onLearnedHexkey
  cases result with
  | none => exact ⟨h.reply (by decide), hrow, hcreated⟩
  | some entry =>
    dsimp only
    cases entry.eventtime with
    | none => exact ⟨h.reply (by decide), hrow, hcreated⟩
    | some eventTime =>
      dsimp only
      split
      · exact ⟨recorded_reply (by decide) h.account h.row, hrow, hcreated⟩
      · refine ⟨⟨fun _ => ⟨hrow, hcreated⟩, ?_, ?_, ?_, ?_, h.account, h.row⟩, hrow, hcreated⟩
        · exact fun heq => by cases heq
        · exact fun heq => by cases heq
        · exact fun pending heq => by cases heq
        · exact fun heq => by cases heq

/-- The row that a `SELECT` returns first is one of those that it selects. -/
theorem firstRow_eq_some {α : Type} {rows : List α} {p : α → Bool} {k : Option Nat} {result : Option α}
    (h : firstRow rows p k = some result) :
    k = none ∧ result = none ∨ ∃ i a, k = some i ∧ result = some a ∧ rows[i]? = some a ∧ p a = true := by
  cases k with
  | none =>
    simp only [firstRow] at h
    split at h
    · cases h
    · exact Or.inl ⟨rfl, (Option.some.inj h).symm⟩
  | some i =>
    obtain ⟨a, ha, rfl⟩ := Option.map_eq_some_iff.mp h
    obtain ⟨hget, hp⟩ := Option.filter_eq_some_iff.mp ha
    exact Or.inr ⟨i, a, rfl, rfl, hget, hp⟩

theorem onLearnedInvite_recorded (rules : CreationRules) (h : Recorded db r) (hcreated : r.created = false)
    {k : Option Nat} {p : SignupKey → Bool} {result : Option SignupKey} (hresult : firstRow db.emailSignupKeys p k = some result) :
    Recorded db (r.onLearnedInvite rules k result) ∧ (r.onLearnedInvite rules k result).created = false := by
  rcases firstRow_eq_some hresult with ⟨rfl, rfl⟩ | ⟨i, invite, rfl, rfl, hget, -⟩
  · exact ⟨h.reply (by decide), hcreated⟩
  · refine ⟨⟨?_, ?_, fun _ => hcreated, ?_, ?_, ?_, ?_⟩, hcreated⟩
    · rintro (heq | heq | heq) <;> cases heq
    · exact fun heq => by cases heq
    · exact fun pending heq => by cases heq
    · exact fun heq => by cases heq
    · intro hfalse
      cases hcreated.symm.trans hfalse
    · intro k' hk'
      cases hk'
      rw [List.getElem?_map, hget]
      rfl

/-- The trigger lets a second account for one address through only if the address is `NULL`. -/
theorem insertAccount_cases (account : NewAccount) (db : SignupTables) :
    (db.insertAccount account).1 = db ∧ (db.insertAccount account).2 ≠ .row ∨
      (db.insertAccount account).1 = { db with accounts := db.accounts ++ [account] } ∧
        (db.insertAccount account).2 = .row ∧ ∀ e ∈ account.email, ∀ a ∈ db.accounts, a.email ≠ some e := by
  unfold SignupTables.insertAccount
  by_cases htaken : db.emailTaken account.email = true
  · rw [if_pos htaken]
    exact Or.inl ⟨rfl, by simp⟩
  rw [if_neg htaken]
  split
  · exact Or.inl ⟨rfl, by simp⟩
  · refine Or.inr ⟨rfl, rfl, fun e he a ha heq => htaken ?_⟩
    rw [he]
    simp only [SignupTables.emailTaken, Option.any_some, List.any_eq_true]
    exact ⟨a, ha, by simp [heq]⟩

theorem onAccountInserted_of_none (hemail : r.email = none) :
    r.onAccountInserted .row = reply .unknownError { r with created := true } := by
  simp only [onAccountInserted, hemail]

theorem onAccountInserted_of_some (hemail : r.email ≠ none) :
    r.onAccountInserted .row =
      { r with
        created := true
        stage := .finishing ([.phpbb3, .redeem] ++ if r.shouldAddToMailingList then [.mailingList] else []) } := by
  cases heq : r.email with
  | none => exact absurd heq hemail
  | some address => simp only [onAccountInserted, heq]

theorem inserting_advances (h : Recorded db r) (hstage : r.stage = .inserting) :
    Advances db r (db.insertAccount r.account).1 (r.onAccountInserted (db.insertAccount r.account).2) := by
  have hcreated := h.inserting hstage
  rcases insertAccount_cases r.account db with ⟨hdb, hnot⟩ | ⟨hdb, hrow, hnew⟩
  · rw [hdb]
    have hreply : ∀ code, code ≠ .success → Advances db r db (r.reply code) := fun code hcode =>
      ⟨grown_refl db, h.reply hcode, fun hfalse => by cases hcreated.symm.trans hfalse⟩
    cases hresult : (db.insertAccount r.account).2 with
    | row => exact absurd hresult hnot
    | none => exact hreply _ (by decide)
    | integrityError => exact hreply _ (by decide)
  · rw [hdb, hrow]
    have hgrown : db.Grown { db with accounts := db.accounts ++ [r.account] } :=
      ⟨fun a ha => List.mem_append_left _ ha, rfl⟩
    have haccount : ∀ e ∈ r.email, ∃ a ∈ db.accounts ++ [r.account], a.email = some e :=
      fun e he => ⟨r.account, List.mem_append_right _ (List.mem_singleton_self _), he⟩
    by_cases hemail : r.email = none
    · rw [onAccountInserted_of_none hemail]
      refine ⟨hgrown, recorded_reply (by decide) (fun _ => haccount) h.row, fun _ => Or.inr fun e he => ?_⟩
      cases hemail.symm.trans he
    · rw [onAccountInserted_of_some hemail]
      refine ⟨hgrown, ⟨?_, ?_, ?_, ?_, ?_, fun _ => haccount, h.row⟩, fun _ => Or.inr hnew⟩
      · rintro (heq | heq | heq) <;> cases heq
      · exact fun heq => by cases heq
      · exact fun heq => by cases heq
      · intro pending _
        exact ⟨rfl, hemail⟩
      · exact fun heq => by cases heq

theorem execute_advances (h : Recorded db r) {k : Option Nat} (hexecute : r.execute rules k db = some (db', r')) :
    Advances db r db' r' := by
  have hkeeps : ∀ r' : CreationRequest, Recorded db r' → r'.created = false → Advances db r db r' :=
    fun r' hrecorded hcreated => ⟨grown_refl db, hrecorded, fun hfalse => by cases hcreated.symm.trans hfalse⟩
  have hinvite : ∀ {p}, (firstRow db.emailSignupKeys p k).map (fun result => (db, r.onLearnedInvite rules k result)) =
      some (db', r') → r.stage = .cacheLookup ∨ r.stage = .inviteByEmail ∨ r.stage.byCache = true →
        Advances db r db' r' := by
    intro p hmap hsearching
    obtain ⟨result, hresult, heq⟩ := Option.map_eq_some_iff.mp hmap
    obtain ⟨hrecorded, hcreated⟩ := onLearnedInvite_recorded rules h (h.searching hsearching).2 hresult
    cases heq
    exact hkeeps _ hrecorded hcreated
  unfold execute at hexecute
  cases hstage : r.stage with
  | cacheLookup =>
    obtain ⟨hrow, hcreated⟩ := h.searching (Or.inl hstage)
    simp only [hstage] at hexecute
    obtain ⟨result, -, heq⟩ := Option.map_eq_some_iff.mp hexecute
    obtain ⟨hrecorded, -, hcreated⟩ := onLearnedHexkey_recorded h hrow hcreated result
    cases heq
    exact hkeeps _ hrecorded hcreated
  | inviteByEmail =>
    simp only [hstage] at hexecute
    exact hinvite hexecute (Or.inr (Or.inl hstage))
  | inviteByValue hexKey =>
    simp only [hstage] at hexecute
    exact hinvite hexecute (Or.inr (Or.inr (by rw [hstage]; trivial)))
  | inserting =>
    simp only [hstage] at hexecute
    cases hexecute
    exact inserting_advances h hstage
  | finishing pending => simp only [hstage] at hexecute; cases hexecute
  | replied code => simp only [hstage] at hexecute; cases hexecute

theorem onAccountInserted_recent (result : SignupTables.Inserted) : Recent (r.onAccountInserted result) ↔ Recent r := by
  cases result with
  | integrityError => exact Iff.rfl
  | none => exact Iff.rfl
  | row =>
    by_cases hemail : r.email = none
    · rw [onAccountInserted_of_none hemail]
      exact Iff.rfl
    · rw [onAccountInserted_of_some hemail]
      exact Iff.rfl

/-- Only an invite that is looked up by a cache entry can be found late. -/
theorem execute_recent_iff (h : Recorded db r) (hrecent : Recent r) {k : Option Nat}
    (hexecute : r.execute rules k db = some (db', r')) :
    Recent r' ↔ (k ≠ none → r.stage.byCache = true →
      ∀ eventTime ∈ r.cacheTime, r.curTime - eventTime ≤ CACHE_ENTRY_LIFETIME) := by
  unfold execute at hexecute
  cases hstage : r.stage with
  | cacheLookup =>
    obtain ⟨hrow, hcreated⟩ := h.searching (Or.inl hstage)
    simp only [hstage] at hexecute
    obtain ⟨result, -, heq⟩ := Option.map_eq_some_iff.mp hexecute
    obtain ⟨-, hrow', -⟩ := onLearnedHexkey_recorded h hrow hcreated result
    cases heq
    refine iff_of_true (fun hfound => absurd hrow' hfound) fun _ hby => ?_
    cases hby
  | inviteByEmail =>
    have hnone := h.byEmail hstage
    simp only [hstage] at hexecute
    obtain ⟨result, -, heq⟩ := Option.map_eq_some_iff.mp hexecute
    cases heq
    have hsame : (r.onLearnedInvite rules k result).cacheTime = r.cacheTime := by cases result <;> rfl
    refine iff_of_true (fun _ eventTime htime => ?_) fun _ hby => ?_
    · rw [hsame, hnone] at htime
      cases htime
    · cases hby
  | inviteByValue hexKey =>
    simp only [hstage] at hexecute
    obtain ⟨result, hresult, heq⟩ := Option.map_eq_some_iff.mp hexecute
    cases heq
    rcases firstRow_eq_some hresult with ⟨rfl, rfl⟩ | ⟨i, invite, rfl, rfl, -, -⟩
    · exact iff_of_true hrecent fun hfound => absurd rfl hfound
    · constructor
      · exact fun hrecent' _ _ => hrecent' (Option.some_ne_none i)
      · exact fun hcond _ => hcond (Option.some_ne_none i) rfl
  | inserting =>
    simp only [hstage] at hexecute
    cases hexecute
    refine iff_of_true ((onAccountInserted_recent _).mpr hrecent) fun _ hby => ?_
    cases hby
  | finishing pending => simp only [hstage] at hexecute; cases hexecute
  | replied code => simp only [hstage] at hexecute; cases hexecute

theorem fail_advances (h : Recorded db r) (hfail : r.fail = some r') :
    Advances db r db r' ∧ (Recent r' ↔ Recent r) := by
  have hreply : r' = r.reply .unknownError := by
    unfold fail at hfail
    split at hfail <;> simp_all
  subst hreply
  exact ⟨⟨grown_refl db, h.reply (by decide), fun hcreated => Or.inl ⟨hcreated, rfl⟩⟩, Iff.rfl⟩

theorem finish_advances (h : Recorded db r) {task : SecondaryTask} {failed : Bool}
    (hfinish : r.finish task failed db = some (db', r')) : Advances db r db' r' ∧ (Recent r' ↔ Recent r) := by
  unfold finish at hfinish
  cases hstage : r.stage with
  | finishing pending =>
    obtain ⟨hcreated, hemail⟩ := h.finishing pending hstage
    simp only [hstage] at hfinish
    split at hfinish
    · have hgrown : db.Grown db' := by
        cases hfinish
        cases failed with
        | true => exact grown_refl db
        | false =>
          cases task with
          | phpbb3 => exact grown_refl db
          | mailingList => exact grown_addToMailingList r.email r.curTime db
          | redeem =>
            cases r.hexKey with
            | none => exact grown_refl db
            | some hexKey => exact grown_redeem hexKey db
      have hmono := h.mono hgrown
      cases hfinish
      have hkeeps : ∀ stage : CreationStage, stage = .replied .success ∨ (∃ left, stage = .finishing left) →
          Advances db r _ { r with stage := stage } ∧ (Recent { r with stage := stage } ↔ Recent r) := fun stage hlate =>
        ⟨⟨hgrown, hmono.later hcreated hemail hlate, fun _ => Or.inl ⟨hcreated, rfl⟩⟩, Iff.rfl⟩
      by_cases hlast : pending.erase task = []
      · rw [if_pos hlast]
        exact hkeeps _ (Or.inl rfl)
      · rw [if_neg hlast]
        exact hkeeps _ (Or.inr ⟨_, rfl⟩)
    · cases hfinish
  | cacheLookup => simp only [hstage] at hfinish; cases hfinish
  | inviteByEmail => simp only [hstage] at hfinish; cases hfinish
  | inviteByValue hexKey => simp only [hstage] at hfinish; cases hfinish
  | inserting => simp only [hstage] at hfinish; cases hfinish
  | replied code => simp only [hstage] at hfinish; cases hfinish

end CreationRequest

/-! ### Every run -/

namespace SignupServer

variable {rules : CreationRules} {s t : SignupServer}

/-- What holds of the server in every run. The accounts that two requests made have different addresses, as
far as they have addresses. -/
structure Kept (s : SignupServer) : Prop where
  recorded : ∀ r ∈ s.requests, r.Recorded s.db
  distinct : ∀ (i j : Nat) (r r' : CreationRequest), s.requests[i]? = some r → s.requests[j]? = some r' →
    r.created = true → r'.created = true → r.email = r'.email → r.email ≠ none → i = j

/-- The invites that were found so far were found by entries that are recent. -/
def AllRecent (s : SignupServer) : Prop := ∀ r ∈ s.requests, r.Recent

theorem start_kept (db : SignupTables) : (start db).Kept := by
  refine ⟨fun r hr => ?_, fun i j r r' hi => ?_⟩
  · cases hr
  · cases hi

theorem make_kept {data ipAddress : Bytes} {curTime : Int} {r : CreationRequest}
    (hmake : CreationRequest.make rules data ipAddress curTime = some r) (db : SignupTables) :
    r.Recorded db ∧ r.created = false ∧ r.Recent := by
  have hstart : ∀ (r : CreationRequest) (email : Bytes), r.created = false → r.row = none → r.cacheTime = none →
      (r.start rules email).Recorded db ∧ (r.start rules email).created = false ∧ (r.start rules email).Recent := by
    intro r email hcreated hrow htime
    have haccount : r.created = true → ∀ e ∈ r.email, ∃ a ∈ db.accounts, a.email = some e :=
      fun hfalse => by cases hcreated.symm.trans hfalse
    have hnone : ∀ k ∈ r.row, (db.emailSignupKeys.map SignupKey.email)[k]? = some r.email :=
      fun k hk => by cases hrow.symm.trans hk
    have hrecent : ∀ stage, CreationRequest.Recent { r with stage := stage } := fun _ hfound => absurd hrow hfound
    have hreply : ∀ code, code ≠ .success → (r.reply code).Recorded db ∧ (r.reply code).created = false ∧ (r.reply code).Recent :=
      fun code hcode => ⟨CreationRequest.recorded_reply hcode haccount hnone, hcreated, hrecent _⟩
    unfold CreationRequest.start
    split
    · exact hreply _ (by decide)
    split
    · exact hreply _ (by decide)
    split
    · refine ⟨⟨fun _ => ⟨hrow, hcreated⟩, ?_, ?_, ?_, ?_, haccount, hnone⟩, hcreated, hrecent _⟩
      · exact fun heq => by cases heq
      · exact fun heq => by cases heq
      · exact fun pending heq => by cases heq
      · exact fun heq => by cases heq
    split
    · exact hreply _ (by decide)
    · refine ⟨⟨fun _ => ⟨hrow, hcreated⟩, fun _ => htime, ?_, ?_, ?_, haccount, hnone⟩, hcreated, hrecent _⟩
      · exact fun heq => by cases heq
      · exact fun pending heq => by cases heq
      · exact fun heq => by cases heq
  unfold CreationRequest.make at hmake
  split at hmake
  · cases hmake
    exact hstart _ _ rfl rfl rfl
  · cases hmake

/-- The one of two requests that makes its account later finds an address that no account has. -/
theorem clash {db db' : SignupTables} {r r' other : CreationRequest} (hadvances : r.Advances db db' r')
    (hother : other.Recorded db) (hcreated : r'.created = true) (hcreated' : other.created = true)
    (hemail : r'.email = other.email) (hsome : r'.email ≠ none) : r.created = true ∧ r.email = other.email := by
  rcases hadvances.creates hcreated with ⟨hbefore, hsame⟩ | hnew
  · exact ⟨hbefore, hsame.symm.trans hemail⟩
  · obtain ⟨e, he⟩ := Option.ne_none_iff_exists'.mp hsome
    obtain ⟨a, ha, heq⟩ := hother.account hcreated' e (hemail.symm.trans he)
    exact absurd heq (hnew e he a ha)

theorem set_kept {j : Nat} {db' : SignupTables} {r r' : CreationRequest} (hs : s.Kept) (hget : s.requests[j]? = some r)
    (hadvances : r.Advances s.db db' r') : Kept ⟨db', s.requests.set j r'⟩ := by
  have hlt : j < s.requests.length := (List.getElem?_eq_some_iff.mp hget).1
  have hset : ∀ {i : Nat} {q : CreationRequest}, (s.requests.set j r')[i]? = some q →
      i = j ∧ q = r' ∨ i ≠ j ∧ s.requests[i]? = some q := by
    intro i q hq
    by_cases hij : i = j
    · subst hij
      rw [List.getElem?_set_self hlt] at hq
      exact Or.inl ⟨rfl, (Option.some.inj hq).symm⟩
    · rw [List.getElem?_set_ne (Ne.symm hij)] at hq
      exact Or.inr ⟨hij, hq⟩
  refine ⟨fun q hq => ?_, fun i i' q q' hq hq' hcreated hcreated' hemail hsome => ?_⟩
  · rcases List.mem_or_eq_of_mem_set hq with hold | rfl
    · exact (hs.recorded q hold).mono hadvances.grown
    · exact hadvances.recorded
  · rcases hset hq with ⟨rfl, rfl⟩ | ⟨-, hi⟩ <;> rcases hset hq' with ⟨rfl, rfl⟩ | ⟨-, hi'⟩
    · rfl
    · obtain ⟨hbefore, hsame⟩ :=
        clash hadvances (hs.recorded q' (List.mem_of_getElem? hi')) hcreated hcreated' hemail hsome
      exact hs.distinct _ _ _ _ hget hi' hbefore hcreated' hsame (by rw [hsame, ← hemail]; exact hsome)
    · obtain ⟨hbefore, hsame⟩ :=
        clash hadvances (hs.recorded q (List.mem_of_getElem? hi)) hcreated' hcreated hemail.symm (by rw [← hemail]; exact hsome)
      exact hs.distinct _ _ _ _ hi hget hcreated hbefore hsame.symm hsome
    · exact hs.distinct _ _ _ _ hi hi' hcreated hcreated' hemail hsome

theorem advance_eq_some {j : Nat} {f : SignupTables → CreationRequest → Option (SignupTables × CreationRequest)}
    (h : s.advance j f = some t) :
    ∃ r db' r', s.requests[j]? = some r ∧ f s.db r = some (db', r') ∧ t = ⟨db', s.requests.set j r'⟩ := by
  obtain ⟨r, hget, hmap⟩ := Option.bind_eq_some_iff.mp h
  obtain ⟨⟨db', r'⟩, hf, heq⟩ := Option.map_eq_some_iff.mp hmap
  exact ⟨r, db', r', hget, hf, heq.symm⟩

theorem set_recent_iff {j : Nat} {db' : SignupTables} {r r' : CreationRequest} (hrecent : s.AllRecent)
    (hget : s.requests[j]? = some r) : AllRecent ⟨db', s.requests.set j r'⟩ ↔ r'.Recent := by
  have hlt : j < s.requests.length := (List.getElem?_eq_some_iff.mp hget).1
  constructor
  · exact fun hall => hall r' (List.mem_set hlt r')
  · intro hr' q hq
    rcases List.mem_or_eq_of_mem_set hq with hold | rfl
    · exact hrecent q hold
    · exact hr'

/-- A step brings in a request or lets one of them advance. -/
theorem step_cases (hs : s.Kept) {e : Event} (hstep : s.step rules e = some t) :
    (∃ r, r.Recorded s.db ∧ r.created = false ∧ r.Recent ∧ t = { s with requests := s.requests ++ [r] } ∧ s.FindsRecent e) ∨
      ∃ j r db' r', s.requests[j]? = some r ∧ r.Advances s.db db' r' ∧ t = ⟨db', s.requests.set j r'⟩ ∧
        (r.Recent → (r'.Recent ↔ s.FindsRecent e)) := by
  cases e with
  | receive data ipAddress curTime =>
    obtain ⟨r, hmake, heq⟩ := Option.map_eq_some_iff.mp hstep
    obtain ⟨hrecorded, hcreated, hrecent⟩ := make_kept hmake s.db
    exact Or.inl ⟨r, hrecorded, hcreated, hrecent, heq.symm, trivial⟩
  | execute j k =>
    obtain ⟨r, db', r', hget, hexecute, heq⟩ := advance_eq_some hstep
    have hrecorded := hs.recorded r (List.mem_of_getElem? hget)
    refine Or.inr ⟨j, r, db', r', hget, CreationRequest.execute_advances hrecorded hexecute, heq, fun hrecent => ?_⟩
    rw [CreationRequest.execute_recent_iff hrecorded hrecent hexecute]
    cases k with
    | none => exact iff_of_true (fun hfound => absurd rfl hfound) trivial
    | some i => simp [FindsRecent, hget]
  | fail j =>
    simp only [step] at hstep
    obtain ⟨r, db', r', hget, hmap, heq⟩ := advance_eq_some hstep
    obtain ⟨r'', hfail, hsame⟩ := Option.map_eq_some_iff.mp hmap
    cases hsame
    obtain ⟨hadvances, hiff⟩ := CreationRequest.fail_advances (hs.recorded r (List.mem_of_getElem? hget)) hfail
    exact Or.inr ⟨j, r, s.db, r', hget, hadvances, heq, fun hrecent => iff_of_true (hiff.mpr hrecent) trivial⟩
  | finish j task failed =>
    obtain ⟨r, db', r', hget, hfinish, heq⟩ := advance_eq_some hstep
    obtain ⟨hadvances, hiff⟩ := CreationRequest.finish_advances (hs.recorded r (List.mem_of_getElem? hget)) hfinish
    exact Or.inr ⟨j, r, db', r', hget, hadvances, heq, fun hrecent => iff_of_true (hiff.mpr hrecent) trivial⟩

theorem append_kept {r : CreationRequest} (hs : s.Kept) (hrecorded : r.Recorded s.db) (hcreated : r.created = false) :
    Kept { s with requests := s.requests ++ [r] } := by
  -- the last request has made no account
  have hold : ∀ {i : Nat} {q : CreationRequest}, (s.requests ++ [r])[i]? = some q → q.created = true →
      s.requests[i]? = some q := by
    intro i q hq hmade
    rcases Nat.lt_or_ge i s.requests.length with hlt | hge
    · rwa [List.getElem?_append_left hlt] at hq
    · rw [List.getElem?_append_right hge] at hq
      have hqr := List.mem_singleton.mp (List.mem_of_getElem? hq)
      subst hqr
      cases hcreated.symm.trans hmade
  refine ⟨fun q hq => ?_, fun i j q q' hi hj hmade hmade' => ?_⟩
  · rcases List.mem_append.mp hq with hq | hq
    · exact hs.recorded q hq
    · rw [List.mem_singleton.mp hq]
      exact hrecorded
  · exact hs.distinct i j q q' (hold hi hmade) (hold hj hmade') hmade hmade'

theorem step_kept (hs : s.Kept) {e : Event} (hstep : s.step rules e = some t) : t.Kept := by
  rcases step_cases hs hstep with ⟨r, hrecorded, hcreated, -, rfl, -⟩ | ⟨j, r, db', r', hget, hadvances, rfl, -⟩
  · exact append_kept hs hrecorded hcreated
  · exact set_kept hs hget hadvances

theorem step_recent_iff (hs : s.Kept) (hrecent : s.AllRecent) {e : Event} (hstep : s.step rules e = some t) :
    t.AllRecent ↔ s.FindsRecent e := by
  rcases step_cases hs hstep with ⟨r, -, -, hr, rfl, hfinds⟩ | ⟨j, r, db', r', hget, -, rfl, hiff⟩
  · refine iff_of_true (fun q hq => ?_) hfinds
    rcases List.mem_append.mp hq with hold | hnew
    · exact hrecent q hold
    · rw [List.mem_singleton.mp hnew]
      exact hr
  · rw [set_recent_iff hrecent hget]
    exact hiff (hrecent r (List.mem_of_getElem? hget))

theorem Kept.oneAccountPerInvite (hs : s.Kept) (hrecent : s.AllRecent) : s.OneAccountPerInvite := by
  refine ⟨fun i j r r' k hi hj hsuccess hsuccess' hrow hrow' => ?_, hrecent⟩
  have hr := hs.recorded r (List.mem_of_getElem? hi)
  have hr' := hs.recorded r' (List.mem_of_getElem? hj)
  obtain ⟨hcreated, hsome⟩ := hr.success hsuccess
  have hemail : r.email = r'.email := Option.some.inj ((hr.row k hrow).symm.trans (hr'.row k hrow'))
  exact hs.distinct i j r r' hi hj hcreated (hr'.success hsuccess').1 hemail hsome

/-- A row of `email_signup_keys` leads to at most one account that is answered with success in every run, and
in all of its states the invites that the cache led to came from recent entries exactly when no lookup of an
invite goes by an entry that is too old. -/
theorem one_account_per_invite {ok : SignupServer → Event → Prop} {db : SignupTables} {es : List Event}
    (h : Run (step rules) ok (start db) es t) :
    (∀ before s, before <+: es → Run (step rules) ok (start db) before s → s.OneAccountPerInvite) ↔
      EachStep (step rules) FindsRecent (start db) es := by
  apply h.forall_prefix_iff (I := fun s => s.Kept ∧ s.AllRecent)
  · exact fun hs => hs.1.oneAccountPerInvite hs.2
  · exact fun hs hstep hfinds => ⟨step_kept hs.1 hstep, (step_recent_iff hs.1 hs.2 hstep).mpr hfinds⟩
  · exact fun hs hstep hgood => (step_recent_iff hs.1 hs.2 hstep).mp hgood.recent
  · exact ⟨start_kept db, fun _ h => by cases h⟩

/-- Every input is well formed, and the digest is the password. -/
def exampleRules : CreationRules where
  usernameRegex := fun _ => true
  passwordRegex := fun _ => true
  emailRegex := fun _ => true
  formatAuth := fun _ password => password

/-- A request for a user and an address, with the wish to be on the mailing list. -/
def exampleData (username email : Bytes) : Bytes :=
  username ++ List.replicate (50 - username.length) 0 ++ List.replicate 50 112 ++ email ++
    List.replicate (150 - email.length) 0 ++ [1]

/-- One invite, and a cache entry of time 0 that leads to it. -/
def exampleTables : SignupTables where
  emailSignupKeys := [⟨[107], some [101], false⟩]
  downloadIdCache := [⟨[107], some 0, [1]⟩]
  accounts := []
  mailingList := []

/-- Two requests find the same invite before one of them inserts its account. -/
theorem one_account_per_invite_twice :
    ∃ s, Run (step exampleRules) (fun _ _ => True) (start exampleTables)
        [.receive (exampleData [97] [101]) [1] 0, .receive (exampleData [98] [101]) [2] 0, .execute 0 (some 0),
          .execute 1 (some 0), .execute 1 none, .execute 0 none, .finish 1 .phpbb3 true, .finish 1 .redeem false,
          .finish 1 .mailingList false] s ∧
      s.requests.map CreationRequest.stage = [.replied .badEmail, .replied .success] ∧
      ∀ before t, before <+: [.receive (exampleData [97] [101]) [1] 0, .receive (exampleData [98] [101]) [2] 0,
          .execute 0 (some 0), .execute 1 (some 0), .execute 1 none, .execute 0 none, .finish 1 .phpbb3 true,
          .finish 1 .redeem false, .finish 1 .mailingList false] →
        Run (step exampleRules) (fun _ _ => True) (start exampleTables) before t → t.OneAccountPerInvite := by
  have hend : (exec (step exampleRules) (start exampleTables)
      [.receive (exampleData [97] [101]) [1] 0, .receive (exampleData [98] [101]) [2] 0, .execute 0 (some 0),
        .execute 1 (some 0), .execute 1 none, .execute 0 none, .finish 1 .phpbb3 true, .finish 1 .redeem false,
        .finish 1 .mailingList false]).any
      (fun s => s.requests.map CreationRequest.stage = [.replied .badEmail, .replied .success]) = true := by
    decide
  have hfinds : EachStep (step exampleRules) FindsRecent (start exampleTables)
      [.receive (exampleData [97] [101]) [1] 0, .receive (exampleData [98] [101]) [2] 0, .execute 0 (some 0),
        .execute 1 (some 0), .execute 1 none, .execute 0 none, .finish 1 .phpbb3 true, .finish 1 .redeem false,
        .finish 1 .mailingList false] := by
    decide
  obtain ⟨s, hrun, hstages⟩ := exists_run hend (eachStep_true _ _)
  exact ⟨s, hrun, of_decide_eq_true hstages, (one_account_per_invite hrun).mpr hfinds⟩

/-- After thirty days, the cache entry still leads to the invite. -/
theorem old_entry_finds_invite :
    ∃ s, Run (step exampleRules) (fun _ _ => True) (start exampleTables)
        [.receive (exampleData [97] []) [1] 2592000, .execute 0 (some 0), .execute 0 (some 0), .execute 0 none,
          .finish 0 .phpbb3 false, .finish 0 .redeem false, .finish 0 .mailingList false] s ∧
      s.requests.map CreationRequest.stage = [.replied .success] ∧
      s.requests.map CreationRequest.cacheTime = [some 0] ∧ ¬s.OneAccountPerInvite := by
  have hend : (exec (step exampleRules) (start exampleTables)
      [.receive (exampleData [97] []) [1] 2592000, .execute 0 (some 0), .execute 0 (some 0), .execute 0 none,
        .finish 0 .phpbb3 false, .finish 0 .redeem false, .finish 0 .mailingList false]).any
      (fun s => decide (s.requests.map CreationRequest.stage = [.replied .success] ∧
        s.requests.map CreationRequest.cacheTime = [some 0] ∧
        ∃ r ∈ s.requests, r.row = some 0 ∧ r.cacheTime = some 0 ∧ r.curTime = 2592000)) = true := by
    decide
  obtain ⟨s, hrun, hdecide⟩ := exists_run hend (eachStep_true _ _)
  obtain ⟨hstages, htimes, r, hr, hrow, htime, hcur⟩ := of_decide_eq_true hdecide
  refine ⟨s, hrun, hstages, htimes, fun hgood => ?_⟩
  have hrecent := hgood.recent r hr (by rw [hrow]; exact Option.some_ne_none 0) 0 htime
  rw [hcur] at hrecent
  exact absurd hrecent (by decide)

end SignupServer

end BitBlinder.Bank
