import BitBlinder.Runs
import BitBlinder.Table
import BitBlinder.Basic

/-!
# Message numbers at the bank

`TCPServer` (`bank/BankServer.py`) for type-0 messages, and the two statements
of `LoginSSLserver.py` that open a session. A relay session is its `auth_blob`.
Database statements and callbacks that are still to come stand in `inFlight`,
and `advance j` lets the `j`-th of them happen. `SymmetricKey` is a parameter:
`decrypt authBlob before data` is the result of deciphering `data` with a key
object that has deciphered the strings `before`.
-/

namespace BitBlinder.Bank

set_option autoImplicit false

open Struct

structure Relay where
  owner : String
  msgnum : Nat
  authBlob : Bytes
  deriving DecidableEq

inductive RequestType where
  | request
  | deposit
  | payment

/-- A handler object, with the session and the message number that it was made for. -/
structure Handler where
  type : RequestType
  authBlob : Bytes
  msgNum : Nat

structure SymKey where
  authBlob : Bytes
  deciphered : List Bytes

structure Connection where
  handler : Option Handler
  symKey : Option SymKey
  hexId : Bytes
  owner : String
  previousMsgnum : Nat
  isOpen : Bool

def Connection.new : Connection :=
  { handler := none, symKey := none, hexId := [], owner := "", previousMsgnum := 0, isOpen := true }

inductive Deferred where
  | select (connection : Nat) (hexId : Bytes) (encrypted : Bytes)
  | fetchSymKey (connection : Nat) (hexId : Bytes) (tup : List Relay) (encrypted : Bytes)
  | updateMsgnum (msgNum : Nat) (hexId : Bytes)
  | updateDb2 (hexId : Bytes) (username : String) (authBlob : Bytes)
  | updateDb3 (hexId : Bytes) (username : String) (authBlob : Bytes) (known : Bool)

/-- The relay whose message number is about to be written. -/
def Deferred.updates : Deferred → Option Bytes
  | .updateMsgnum _ hexId => some hexId
  | .select _ _ _ => none
  | .fetchSymKey _ _ _ _ => none
  | .updateDb2 _ _ _ => none
  | .updateDb3 _ _ _ _ => none

/-- `issued` are the auth blobs drawn so far and `handled` the runs of a handler's
`on_message`; no function reads them. -/
structure Sessions where
  relays : Table Bytes Relay
  connections : List Connection
  inFlight : List Deferred
  issued : List Bytes
  handled : List (Bytes × Nat)

namespace Sessions

def initial : Sessions :=
  { relays := { rows := [], nodup := List.nodup_nil }, connections := [], inFlight := [], issued := [],
    handled := [] }

def push (s : Sessions) (p : Deferred) : Sessions := { s with inFlight := s.inFlight ++ [p] }

def setConnection (s : Sessions) (c : Nat) (connection : Connection) : Sessions :=
  { s with connections := s.connections.set c connection }

end Sessions

section Server
variable (decrypt : Bytes → List Bytes → Bytes → PyExcept Bytes)

/-- The nonce test of `update_db`: the message number and the rest of the message. -/
def checkMsgNum (previousMsgnum : Nat) (blob : Bytes) : PyExcept (Nat × Bytes) := do
  let (protocol, blob) ← Basic.readByte blob
  if protocol ≠ 1 then
    throw (.exception "change protocol")
  else
    let (msgNum, blob) ← Basic.readShort blob
    if previousMsgnum < msgNum then
      return (msgNum, blob)
    else
      throw (.exception "replay attack or something")

def requestType (blob : Bytes) : PyExcept (Option RequestType) := do
  let (type, _) ← Basic.readByte blob
  match type with
  | 1 => return some .request
  | 2 => return some .deposit
  | 3 => return some .payment
  | _ => return none

/-- `fetch_sym_key` and the nonce test on the rows that the `SELECT` has returned. -/
def verify (tup : List Relay) (encrypted : Bytes) : PyExcept (Relay × Nat × Bytes) :=
  match tup with
  | [relay] => do
    let blob ← decrypt relay.authBlob [] encrypted
    let (msgNum, blob) ← checkMsgNum relay.msgnum blob
    return (relay, msgNum, blob)
  | _ => .error (.assertionError "")

namespace Sessions

/-- `sym_decrypt` of a type-0 string; an exception is answered by `err`. Strings of the
other type that the code knows are not in these runs. -/
def symDecrypt (s : Sessions) (c : Nat) (connection : Connection) (data : Bytes) : Option Sessions :=
  match connection.symKey with
  | some _ => some s
  | none =>
    match Basic.readByte data with
    | .error _ => some s
    | .ok (0, msg) =>
      match Basic.readMessage [.s 20] msg with
      | .error _ => some s
      | .ok ((binId, _), msg) =>
        some ((s.setConnection c { connection with hexId := binId }).push (.select c binId msg))
    | .ok (1, _) => none
    | .ok _ => some s

def stringReceived (s : Sessions) (c : Nat) (connection : Connection) (data : Bytes) :
    Option Sessions :=
  match connection.handler, connection.symKey with
  | some handler, some key =>
    let key' := { key with deciphered := key.deciphered ++ [data] }
    let s := s.setConnection c { connection with symKey := some key' }
    match decrypt key.authBlob key.deciphered data with
    | .error _ => some s
    | .ok _ => some { s with handled := s.handled ++ [(handler.authBlob, handler.msgNum)] }
  | some _, none => some s
  | none, _ => s.symDecrypt c connection data

/-- The callbacks `fetch_sym_key`, `update_db` and `handle_message`, which run one after
the other without leaving the reactor. -/
def handleMessage (s : Sessions) (c : Nat) (connection : Connection) (tup : List Relay)
    (encrypted : Bytes) : Sessions :=
  match tup with
  | [relay] =>
    let connection := { connection with
      owner := relay.owner
      previousMsgnum := relay.msgnum
      symKey := some { authBlob := relay.authBlob, deciphered := [encrypted] } }
    match verify decrypt tup encrypted with
    | .error _ => s.setConnection c connection
    | .ok (_, msgNum, blob) =>
      let s := s.push (.updateMsgnum msgNum connection.hexId)
      match requestType blob with
      | .ok (some type) =>
        let handler : Handler := { type, authBlob := relay.authBlob, msgNum }
        { s.setConnection c { connection with handler := some handler } with
          handled := s.handled ++ [(relay.authBlob, msgNum)] }
      | _ => s.setConnection c connection
  | _ => s

def advance (s : Sessions) : Deferred → Option Sessions
  | .select c hexId encrypted => some (s.push (.fetchSymKey c hexId (s.relays.select hexId) encrypted))
  | .fetchSymKey c _ tup encrypted =>
    (s.connections[c]?).map fun connection => s.handleMessage decrypt c connection tup encrypted
  | .updateMsgnum msgNum hexId =>
    some { s with relays := s.relays.update hexId fun relay => { relay with msgnum := msgNum } }
  | .updateDb2 hexId username authBlob =>
    some (s.push (.updateDb3 hexId username authBlob (s.relays.select hexId ≠ [])))
  | .updateDb3 hexId username authBlob known =>
    if known then
      some { s with relays := s.relays.update hexId fun relay => { relay with authBlob, msgnum := 0 } }
    else
      match s.relays.insert hexId { owner := username, msgnum := 0, authBlob } with
      | none => some s
      | some relays => some { s with relays }

end Sessions

/-- `login` is a login that has passed the checks before `update_db2`. -/
inductive SessionAction where
  | connect
  | string (connection : Nat) (data : Bytes)
  | lost (connection : Nat)
  | login (hexId : Bytes) (username : String) (authBlob : Bytes)
  | advance (j : Nat)

namespace Sessions

def step (s : Sessions) : SessionAction → Option Sessions
  | .connect => some { s with connections := s.connections ++ [.new] }
  | .string c data =>
    match s.connections[c]? with
    | none => none
    | some connection =>
      if connection.isOpen then s.stringReceived decrypt c connection data else none
  | .lost c =>
    (s.connections[c]?).map fun connection =>
      s.setConnection c { connection with isOpen := false, handler := none }
  | .login hexId username authBlob =>
    some ({ s with issued := authBlob :: s.issued }.push (.updateDb2 hexId username authBlob))
  | .advance j =>
    match s.inFlight[j]? with
    | none => none
    | some p => { s with inFlight := s.inFlight.eraseIdx j }.advance decrypt p

/-- `os.urandom` never draws the same key twice. -/
def FreshKeys (s : Sessions) : SessionAction → Prop
  | .login _ _ authBlob => authBlob ∉ s.issued
  | _ => True

/-- A row that passes the nonce test has not been overtaken: it is still the relay's
row, no new message number is on its way to it, and the connection still names it. -/
def NotOvertaken (s : Sessions) : Deferred → Prop
  | .fetchSymKey c hexId tup encrypted =>
    (verify decrypt tup encrypted).isOk →
      s.relays.select hexId = tup ∧ (∀ q ∈ s.inFlight, q.updates ≠ some hexId) ∧
        ∀ connection ∈ s.connections[c]?, connection.hexId = hexId
  | _ => True

/-- Besides, a connection with a handler gets no further string. -/
def Serialised (s : Sessions) : SessionAction → Prop
  | .string c _ => ∀ connection ∈ s.connections[c]?, connection.handler = none
  | .advance j => ∀ p ∈ s.inFlight[j]?, s.NotOvertaken decrypt p
  | _ => True

instance decidableFreshKeys (s : Sessions) : (a : SessionAction) → Decidable (s.FreshKeys a)
  | .login _ _ authBlob => inferInstanceAs (Decidable (authBlob ∉ s.issued))
  | .connect => isTrue trivial
  | .string _ _ => isTrue trivial
  | .lost _ => isTrue trivial
  | .advance _ => isTrue trivial

instance decidableNotOvertaken (s : Sessions) : (p : Deferred) → Decidable (s.NotOvertaken decrypt p)
  | .fetchSymKey _ _ _ _ => inferInstanceAs (Decidable (_ → _))
  | .select _ _ _ => isTrue trivial
  | .updateMsgnum _ _ => isTrue trivial
  | .updateDb2 _ _ _ => isTrue trivial
  | .updateDb3 _ _ _ _ => isTrue trivial

instance decidableSerialised (s : Sessions) :
    (a : SessionAction) → Decidable (s.Serialised decrypt a)
  | .string c _ =>
    inferInstanceAs (Decidable (∀ connection ∈ s.connections[c]?, connection.handler = none))
  | .advance j => inferInstanceAs (Decidable (∀ p ∈ s.inFlight[j]?, s.NotOvertaken decrypt p))
  | .connect => isTrue trivial
  | .lost _ => isTrue trivial
  | .login _ _ _ => isTrue trivial

end Sessions

end Server

def Deferred.login : Deferred → Option Bytes
  | .updateDb2 _ _ authBlob => some authBlob
  | .updateDb3 _ _ authBlob _ => some authBlob
  | .select _ _ _ => none
  | .fetchSymKey _ _ _ _ => none
  | .updateMsgnum _ _ => none

namespace Sessions

def logins (s : Sessions) : List Bytes := s.inFlight.filterMap Deferred.login

/-- Every message number handled in a session is at most the one that the relay's row
holds, or at most every number that is on its way to the row. -/
structure Numbered (s : Sessions) : Prop where
  nodup : s.handled.Nodup
  handled_issued : ∀ b n, (b, n) ∈ s.handled → b ∈ s.issued
  row_issued : ∀ h, ∀ relay ∈ s.relays.select h, relay.authBlob ∈ s.issued
  row_unique : ∀ h h', ∀ relay ∈ s.relays.select h, ∀ relay' ∈ s.relays.select h',
    relay.authBlob = relay'.authBlob → h = h'
  logins_nodup : s.logins.Nodup
  login_issued : ∀ b ∈ s.logins, b ∈ s.issued
  login_unhandled : ∀ b ∈ s.logins, ∀ n, (b, n) ∉ s.handled
  login_no_row : ∀ b ∈ s.logins, ∀ h, ∀ relay ∈ s.relays.select h, relay.authBlob ≠ b
  le_update : ∀ h, ∀ relay ∈ s.relays.select h, ∀ n, (relay.authBlob, n) ∈ s.handled →
    ∀ k, .updateMsgnum k h ∈ s.inFlight → n ≤ k
  le_row : ∀ h, ∀ relay ∈ s.relays.select h, ∀ n, (relay.authBlob, n) ∈ s.handled →
    (∀ k, .updateMsgnum k h ∉ s.inFlight) → n ≤ relay.msgnum

variable {s t : Sessions} {p : Deferred} {rest : List Deferred}

theorem Numbered.frame (h : Numbered s) (hhandled : t.handled = s.handled)
    (hissued : t.issued = s.issued) (hrelays : t.relays = s.relays)
    (hupdate : ∀ k h, .updateMsgnum k h ∈ t.inFlight ↔ .updateMsgnum k h ∈ s.inFlight)
    (hlogins : t.logins.Perm s.logins) : Numbered t := by
  refine ⟨?_, ?_, ?_, ?_, hlogins.nodup_iff.mpr h.logins_nodup, ?_, ?_, ?_, ?_, ?_⟩
  · rw [hhandled]
    exact h.nodup
  · rw [hhandled, hissued]
    exact h.handled_issued
  · rw [hrelays, hissued]
    exact h.row_issued
  · rw [hrelays]
    exact h.row_unique
  · intro b hb
    rw [hissued]
    exact h.login_issued b (hlogins.subset hb)
  · intro b hb
    rw [hhandled]
    exact h.login_unhandled b (hlogins.subset hb)
  · intro b hb
    rw [hrelays]
    exact h.login_no_row b (hlogins.subset hb)
  · intro h' relay hrelay n hn k hk
    rw [hrelays] at hrelay
    rw [hhandled] at hn
    exact h.le_update h' relay hrelay n hn k ((hupdate k h').mp hk)
  · intro h' relay hrelay n hn hnone
    rw [hrelays] at hrelay
    rw [hhandled] at hn
    exact h.le_row h' relay hrelay n hn fun k hk => hnone k ((hupdate k h').mpr hk)

/-- What changes neither the table nor the records, and leaves the pending updates and
logins in flight, keeps the invariant. -/
theorem Numbered.replace {q : List Deferred} (h : Numbered s) (hperm : (p :: rest).Perm s.inFlight)
    (hp : ∀ k h, p ≠ .updateMsgnum k h) (hq : ∀ k h, .updateMsgnum k h ∉ q)
    (hlogin : q.filterMap Deferred.login = [p].filterMap Deferred.login)
    (connections : List Connection) :
    Numbered { s with inFlight := rest ++ q, connections } := by
  refine h.frame rfl rfl rfl ?_ ?_
  · intro k h'
    have hmem := hperm.mem_iff (a := .updateMsgnum k h')
    simp only [List.mem_append, hq k h', or_false]
    rw [← hmem, List.mem_cons]
    constructor
    · exact Or.inr
    · rintro (heq | hin)
      · exact absurd heq.symm (hp k h')
      · exact hin
  · have hfm := hperm.filterMap Deferred.login
    simp only [logins, List.filterMap_append, hlogin]
    rw [← List.singleton_append, List.filterMap_append] at hfm
    exact List.perm_append_comm.trans hfm

theorem symDecrypt_numbered {c : Nat} {connection : Connection} {data : Bytes} (h : Numbered s)
    (hstep : s.symDecrypt c connection data = some t) : Numbered t := by
  unfold symDecrypt at hstep
  split at hstep
  · cases hstep
    exact h
  · split at hstep
    · cases hstep
      exact h
    · split at hstep
      · cases hstep
        exact h
      · cases hstep
        refine h.frame rfl rfl rfl ?_ ?_
        · intro k h'
          simp [push, setConnection]
        · simp only [logins, push, setConnection, List.filterMap_append]
          exact List.Perm.of_eq (List.append_nil _)
    · cases hstep
    · cases hstep
      exact h

theorem verify_ok {decrypt : Bytes → List Bytes → Bytes → PyExcept Bytes} {tup : List Relay}
    {encrypted blob : Bytes} {relay : Relay} {msgNum : Nat}
    (h : verify decrypt tup encrypted = .ok (relay, msgNum, blob)) :
    tup = [relay] ∧ relay.msgnum < msgNum := by
  unfold verify at h
  split at h
  · rename_i relay'
    obtain ⟨plain, -, h⟩ := PyExcept.bind_eq_ok h
    obtain ⟨⟨n, rest⟩, hcheck, h⟩ := PyExcept.bind_eq_ok h
    cases h
    refine ⟨rfl, ?_⟩
    unfold checkMsgNum at hcheck
    obtain ⟨⟨protocol, plain'⟩, -, hcheck⟩ := PyExcept.bind_eq_ok hcheck
    dsimp only at hcheck
    split at hcheck
    · cases hcheck
    · obtain ⟨⟨n, rest⟩, -, hcheck⟩ := PyExcept.bind_eq_ok hcheck
      dsimp only at hcheck
      split at hcheck
      · cases hcheck
        assumption
      · cases hcheck
  · cases h

/-- A message number above the one in the row is accepted and sent to the row. -/
theorem Numbered.accept {relay : Relay} {msgNum : Nat} (h : Numbered s) (hexId : Bytes)
    (new : List (Bytes × Nat)) (hperm : (p :: rest).Perm s.inFlight) (hlogin : p.login = none)
    (hrow : s.relays.select hexId = [relay]) (hnone : ∀ k, .updateMsgnum k hexId ∉ s.inFlight)
    (hlt : relay.msgnum < msgNum) (hnew : new.Sublist [(relay.authBlob, msgNum)])
    (hp : ∀ k h, p ≠ .updateMsgnum k h) (connections : List Connection) :
    Numbered { s with
      inFlight := rest ++ [.updateMsgnum msgNum hexId], connections, handled := s.handled ++ new } := by
  have hmem : relay ∈ s.relays.select hexId := by simp [hrow]
  have hlogins : ((rest ++ [Deferred.updateMsgnum msgNum hexId]).filterMap Deferred.login).Perm s.logins := by
    have hfm := hperm.filterMap Deferred.login
    rw [List.filterMap_cons_none hlogin] at hfm
    rw [List.filterMap_append]
    exact (List.Perm.of_eq (List.append_nil _)).trans hfm
  have hold : ∀ b n, (b, n) ∈ s.handled ++ new → (b, n) ∈ s.handled ∨ (b = relay.authBlob ∧ n = msgNum) := by
    intro b n hbn
    rcases List.mem_append.mp hbn with hbn | hbn
    · exact Or.inl hbn
    · have := hnew.subset hbn
      simp only [List.mem_singleton, Prod.mk.injEq] at this
      exact Or.inr this
  have hle : ∀ n, (relay.authBlob, n) ∈ s.handled → n ≤ relay.msgnum := by
    intro n hn
    exact h.le_row hexId relay hmem n hn hnone
  constructor
  case nodup =>
    refine h.nodup.append (hnew.nodup (List.nodup_singleton _)) ?_
    rintro ⟨b, n⟩ hbn hin
    have := hnew.subset hin
    simp only [List.mem_singleton, Prod.mk.injEq] at this
    obtain ⟨rfl, rfl⟩ := this
    have := hle _ hbn
    omega
  case handled_issued =>
    intro b n hbn
    rcases hold b n hbn with hbn | ⟨rfl, -⟩
    · exact h.handled_issued b n hbn
    · exact h.row_issued hexId relay hmem
  case row_issued => exact h.row_issued
  case row_unique => exact h.row_unique
  case logins_nodup => exact hlogins.nodup_iff.mpr h.logins_nodup
  case login_issued => exact fun b hb => h.login_issued b (hlogins.subset hb)
  case login_unhandled =>
    intro b hb n hbn
    rcases hold b n hbn with hbn | ⟨rfl, -⟩
    · exact h.login_unhandled b (hlogins.subset hb) n hbn
    · exact h.login_no_row _ (hlogins.subset hb) hexId relay hmem rfl
  case login_no_row => exact fun b hb => h.login_no_row b (hlogins.subset hb)
  case le_update =>
    intro h' relay' hrelay' n hn k hk
    rcases List.mem_append.mp hk with hk | hk
    · have hk' : .updateMsgnum k h' ∈ s.inFlight := hperm.subset (List.mem_cons_of_mem p hk)
      rcases hold _ n hn with hn | ⟨heq, -⟩
      · exact h.le_update h' relay' hrelay' n hn k hk'
      · have := h.row_unique h' hexId relay' hrelay' relay hmem heq
        subst this
        exact absurd hk' (hnone k)
    · simp only [List.mem_singleton, Deferred.updateMsgnum.injEq] at hk
      obtain ⟨rfl, rfl⟩ := hk
      have hrelay : relay' = relay := by
        rw [hrow] at hrelay'
        exact List.mem_singleton.mp hrelay'
      subst hrelay
      rcases hold _ n hn with hn | ⟨-, rfl⟩
      · have := hle n hn
        omega
      · exact Nat.le_refl _
  case le_row =>
    intro h' relay' hrelay' n hn hnone'
    have hne : h' ≠ hexId := by
      rintro rfl
      exact hnone' msgNum (by simp)
    rcases hold _ n hn with hn | ⟨heq, -⟩
    · apply h.le_row h' relay' hrelay' n hn
      intro k hk
      rcases List.mem_cons.mp (hperm.mem_iff.mpr hk) with heq | hk
      · exact hp k h' heq.symm
      · exact hnone' k (List.mem_append_left _ hk)
    · exact absurd (h.row_unique h' hexId relay' hrelay' relay hmem heq) hne

theorem Numbered.update {msgNum : Nat} {hexId : Bytes} (h : Numbered s)
    (hperm : (.updateMsgnum msgNum hexId :: rest).Perm s.inFlight) :
    Numbered { s with
      inFlight := rest
      relays := s.relays.update hexId fun relay => { relay with msgnum := msgNum } } := by
  have hrow : ∀ h', ∀ relay' ∈ (s.relays.update hexId fun relay => { relay with msgnum := msgNum }).select h',
      ∃ relay ∈ s.relays.select h', relay'.authBlob = relay.authBlob ∧
        ((h' = hexId ∧ relay'.msgnum = msgNum) ∨ (h' ≠ hexId ∧ relay' = relay)) := by
    intro h' relay' hrelay'
    rcases Table.mem_select_update hrelay' with ⟨hne, hmem⟩ | ⟨rfl, relay, hmem, rfl⟩
    · exact ⟨relay', hmem, rfl, Or.inr ⟨hne, rfl⟩⟩
    · exact ⟨relay, hmem, rfl, Or.inl ⟨rfl, rfl⟩⟩
  have hfm : (rest.filterMap Deferred.login).Perm s.logins := hperm.filterMap Deferred.login
  refine ⟨h.nodup, h.handled_issued, ?_, ?_, hfm.nodup_iff.mpr h.logins_nodup, ?_, ?_, ?_, ?_, ?_⟩
  · intro h' relay' hrelay'
    obtain ⟨relay, hmem, hblob, -⟩ := hrow h' relay' hrelay'
    rw [hblob]
    exact h.row_issued h' relay hmem
  · intro h₁ h₂ relay₁ hrelay₁ relay₂ hrelay₂ heq
    obtain ⟨old₁, hmem₁, hblob₁, -⟩ := hrow h₁ relay₁ hrelay₁
    obtain ⟨old₂, hmem₂, hblob₂, -⟩ := hrow h₂ relay₂ hrelay₂
    rw [hblob₁, hblob₂] at heq
    exact h.row_unique h₁ h₂ old₁ hmem₁ old₂ hmem₂ heq
  · intro b hb
    exact h.login_issued b (hfm.subset hb)
  · intro b hb
    exact h.login_unhandled b (hfm.subset hb)
  · intro b hb h' relay' hrelay'
    obtain ⟨relay, hmem, hblob, -⟩ := hrow h' relay' hrelay'
    rw [hblob]
    exact h.login_no_row b (hfm.subset hb) h' relay hmem
  · intro h' relay' hrelay' n hn k hk
    obtain ⟨relay, hmem, hblob, -⟩ := hrow h' relay' hrelay'
    rw [hblob] at hn
    exact h.le_update h' relay hmem n hn k (hperm.subset (List.mem_cons_of_mem _ hk))
  · intro h' relay' hrelay' n hn hnone
    obtain ⟨relay, hmem, hblob, hmsgnum⟩ := hrow h' relay' hrelay'
    rw [hblob] at hn
    rcases hmsgnum with ⟨rfl, hnum⟩ | ⟨hne, rfl⟩
    · rw [hnum]
      exact h.le_update h' relay hmem n hn msgNum (hperm.subset List.mem_cons_self)
    · apply h.le_row h' relay' hmem n hn
      intro k hk
      rcases List.mem_cons.mp (hperm.mem_iff.mpr hk) with heq | hk
      · cases heq
        exact hne rfl
      · exact hnone k hk

/-- A login writes its new session into the row of the relay. -/
theorem Numbered.openSession {authBlob : Bytes} {relays : Table Bytes Relay} (h : Numbered s)
    (hexId : Bytes) (hperm : (p :: rest).Perm s.inFlight) (hp : p.login = some authBlob)
    (hrow : ∀ h', ∀ relay ∈ relays.select h',
      relay ∈ s.relays.select h' ∨ (h' = hexId ∧ relay.authBlob = authBlob)) :
    Numbered { s with inFlight := rest, relays } := by
  have hfm : (authBlob :: rest.filterMap Deferred.login).Perm s.logins := by
    have := hperm.filterMap Deferred.login
    rwa [List.filterMap_cons_some hp] at this
  have hin : authBlob ∈ s.logins := hfm.subset List.mem_cons_self
  obtain ⟨hnotin, hnodup⟩ := List.nodup_cons.mp (hfm.nodup_iff.mpr h.logins_nodup)
  have hrest : ∀ b ∈ rest.filterMap Deferred.login, b ∈ s.logins := fun b hb =>
    hfm.subset (List.mem_cons_of_mem _ hb)
  have hupdate : ∀ k h', .updateMsgnum k h' ∈ s.inFlight → .updateMsgnum k h' ∈ rest := by
    intro k h' hk
    rcases List.mem_cons.mp (hperm.mem_iff.mpr hk) with heq | hk
    · rw [← heq] at hp
      cases hp
    · exact hk
  refine ⟨h.nodup, h.handled_issued, ?_, ?_, hnodup, ?_, ?_, ?_, ?_, ?_⟩
  · intro h' relay hrelay
    rcases hrow h' relay hrelay with hold | ⟨-, hblob⟩
    · exact h.row_issued h' relay hold
    · rw [hblob]
      exact h.login_issued _ hin
  · intro h₁ h₂ relay₁ hrelay₁ relay₂ hrelay₂ heq
    rcases hrow h₁ relay₁ hrelay₁ with hold₁ | ⟨rfl, hblob₁⟩
    · rcases hrow h₂ relay₂ hrelay₂ with hold₂ | ⟨rfl, hblob₂⟩
      · exact h.row_unique h₁ h₂ relay₁ hold₁ relay₂ hold₂ heq
      · exact absurd (heq.trans hblob₂) (h.login_no_row _ hin h₁ relay₁ hold₁)
    · rcases hrow h₂ relay₂ hrelay₂ with hold₂ | ⟨rfl, hblob₂⟩
      · exact absurd (heq.symm.trans hblob₁) (h.login_no_row _ hin h₂ relay₂ hold₂)
      · rfl
  · intro b hb
    exact h.login_issued b (hrest b hb)
  · intro b hb
    exact h.login_unhandled b (hrest b hb)
  · intro b hb h' relay hrelay heq
    rcases hrow h' relay hrelay with hold | ⟨-, hblob⟩
    · exact h.login_no_row b (hrest b hb) h' relay hold heq
    · rw [heq] at hblob
      rw [hblob] at hb
      exact hnotin hb
  · intro h' relay hrelay n hn k hk
    rcases hrow h' relay hrelay with hold | ⟨-, hblob⟩
    · exact h.le_update h' relay hold n hn k (hperm.subset (List.mem_cons_of_mem p hk))
    · rw [hblob] at hn
      exact absurd hn (h.login_unhandled _ hin n)
  · intro h' relay hrelay n hn hnone
    rcases hrow h' relay hrelay with hold | ⟨-, hblob⟩
    · exact h.le_row h' relay hold n hn fun k hk => hnone k (hupdate k h' hk)
    · rw [hblob] at hn
      exact absurd hn (h.login_unhandled _ hin n)

section Step
variable {decrypt : Bytes → List Bytes → Bytes → PyExcept Bytes}

theorem handleMessage_numbered {c : Nat} {connection : Connection} {hexId encrypted : Bytes}
    {tup : List Relay} (h : Numbered s)
    (hperm : (.fetchSymKey c hexId tup encrypted :: rest).Perm s.inFlight)
    (hconnection : s.connections[c]? = some connection)
    (hok : s.NotOvertaken decrypt (.fetchSymKey c hexId tup encrypted)) :
    Numbered ({ s with inFlight := rest }.handleMessage decrypt c connection tup encrypted) := by
  have hidle : ∀ connections, Numbered { s with inFlight := rest, connections } := by
    intro connections
    have := h.replace (q := []) hperm (by simp) (by simp) rfl connections
    rwa [List.append_nil] at this
  unfold handleMessage
  split
  · rename_i relay
    dsimp only
    split
    · exact hidle _
    · rename_i relay' msgNum blob hverify
      obtain ⟨hcurrent, hupdates, hhexId⟩ := hok (by rw [hverify]; rfl)
      have hnone : ∀ k, .updateMsgnum k hexId ∉ s.inFlight := fun k hk => hupdates _ hk rfl
      obtain ⟨heq, hlt⟩ := verify_ok hverify
      cases heq
      have haccept := fun new hnew connections =>
        h.accept hexId new hperm rfl hcurrent hnone hlt hnew (by simp) connections
      rw [hhexId connection hconnection]
      split
      · exact haccept _ (List.Sublist.refl _) _
      · have hunhandled := haccept [] (List.nil_sublist _)
        simp only [List.append_nil] at hunhandled
        exact hunhandled _
  · exact hidle _

theorem advance_numbered (h : Numbered s) (hperm : (p :: rest).Perm s.inFlight)
    (hok : s.NotOvertaken decrypt p)
    (hstep : { s with inFlight := rest }.advance decrypt p = some t) : Numbered t := by
  cases p with
  | select c hexId encrypted =>
    cases hstep
    exact h.replace (q := [.fetchSymKey c hexId (s.relays.select hexId) encrypted]) hperm (by simp)
      (by simp) rfl s.connections
  | fetchSymKey c hexId tup encrypted =>
    obtain ⟨connection, hconnection, rfl⟩ := Option.map_eq_some_iff.mp hstep
    exact handleMessage_numbered h hperm hconnection hok
  | updateMsgnum msgNum hexId =>
    cases hstep
    exact h.update hperm
  | updateDb2 hexId username authBlob =>
    cases hstep
    exact h.replace (q := [.updateDb3 hexId username authBlob (s.relays.select hexId ≠ [])]) hperm
      (by simp) (by simp) rfl s.connections
  | updateDb3 hexId username authBlob known =>
    have hopen : ∀ relays : Table Bytes Relay, (∀ h', ∀ relay ∈ relays.select h',
        relay ∈ s.relays.select h' ∨ (h' = hexId ∧ relay.authBlob = authBlob)) →
        Numbered { s with inFlight := rest, relays } := fun relays hrow =>
      h.openSession hexId hperm rfl hrow
    simp only [advance] at hstep
    split at hstep
    · cases hstep
      apply hopen
      intro h' relay hrelay
      rcases Table.mem_select_update hrelay with ⟨-, hold⟩ | ⟨rfl, old, -, rfl⟩
      · exact Or.inl hold
      · exact Or.inr ⟨rfl, rfl⟩
    · split at hstep
      · cases hstep
        exact hopen s.relays fun h' relay hrelay => Or.inl hrelay
      · rename_i relays hinsert
        cases hstep
        apply hopen
        intro h' relay hrelay
        rcases Table.mem_select_insert hinsert hrelay with hold | ⟨rfl, rfl⟩
        · exact Or.inl hold
        · exact Or.inr ⟨rfl, rfl⟩

theorem step_numbered {a : SessionAction} (h : Numbered s)
    (hok : s.FreshKeys a ∧ s.Serialised decrypt a) (hstep : s.step decrypt a = some t) :
    Numbered t := by
  obtain ⟨hfresh, hserial⟩ := hok
  cases a with
  | connect =>
    cases hstep
    exact h.frame rfl rfl rfl (fun _ _ => Iff.rfl) (List.Perm.refl _)
  | string c data =>
    simp only [step] at hstep
    split at hstep
    · cases hstep
    · rename_i connection hconnection
      have hnone := hserial connection hconnection
      split at hstep
      · simp only [stringReceived, hnone] at hstep
        exact symDecrypt_numbered h hstep
      · cases hstep
  | lost c =>
    obtain ⟨connection, -, rfl⟩ := Option.map_eq_some_iff.mp hstep
    exact h.frame rfl rfl rfl (fun _ _ => Iff.rfl) (List.Perm.refl _)
  | login hexId username authBlob =>
    cases hstep
    have hfresh : authBlob ∉ s.issued := hfresh
    have hlogins : ∀ b ∈ (s.inFlight ++ [Deferred.updateDb2 hexId username authBlob]).filterMap
        Deferred.login, b ∈ s.logins ∨ b = authBlob := by
      intro b hb
      rw [List.filterMap_append] at hb
      rcases List.mem_append.mp hb with hb | hb
      · exact Or.inl hb
      · exact Or.inr (List.mem_singleton.mp hb)
    refine ⟨h.nodup, ?_, ?_, h.row_unique, ?_, ?_, ?_, ?_, ?_, ?_⟩
    · intro b n hbn
      exact List.mem_cons_of_mem _ (h.handled_issued b n hbn)
    · intro h' relay hrelay
      exact List.mem_cons_of_mem _ (h.row_issued h' relay hrelay)
    · simp only [logins, push, List.filterMap_append]
      refine h.logins_nodup.append (List.nodup_singleton authBlob) ?_
      intro b hb heq
      rw [List.mem_singleton.mp heq] at hb
      exact hfresh (h.login_issued _ hb)
    · intro b hb
      rcases hlogins b hb with hb | rfl
      · exact List.mem_cons_of_mem _ (h.login_issued b hb)
      · exact List.mem_cons_self
    · intro b hb n hbn
      rcases hlogins b hb with hb | rfl
      · exact h.login_unhandled b hb n hbn
      · exact hfresh (h.handled_issued _ n hbn)
    · intro b hb h' relay hrelay heq
      rcases hlogins b hb with hb | rfl
      · exact h.login_no_row b hb h' relay hrelay heq
      · rw [← heq] at hfresh
        exact hfresh (h.row_issued h' relay hrelay)
    · intro h' relay hrelay n hn k hk
      refine h.le_update h' relay hrelay n hn k ?_
      simpa [push] using hk
    · intro h' relay hrelay n hn hnone
      refine h.le_row h' relay hrelay n hn fun k hk => hnone k ?_
      simpa [push] using hk
  | advance j =>
    simp only [step] at hstep
    split at hstep
    · cases hstep
    · rename_i p hp
      exact advance_numbered h (cons_eraseIdx_perm hp) (hserial p hp) hstep

end Step

theorem initial_numbered : Numbered initial := by
  constructor <;> simp [initial, logins, Table.select]

/-- In every run in which no accepted row is overtaken and no handler gets a second
string, the handler of a session runs at most once for each message number. -/
theorem handled_at_most_once (decrypt : Bytes → List Bytes → Bytes → PyExcept Bytes) (t : Sessions)
    (as : List SessionAction)
    (h : Run (step decrypt) (fun s a => s.FreshKeys a ∧ s.Serialised decrypt a) initial as t) :
    t.handled.Nodup :=
  (h.invariant (I := Numbered) step_numbered initial_numbered).nodup

/-- A cipher that marks a string with its key, for concrete runs. -/
def markedDecrypt (authBlob : Bytes) (_ : List Bytes) (data : Bytes) : PyExcept Bytes :=
  if data.take authBlob.length = authBlob then
    .ok (data.drop authBlob.length)
  else
    .error (.exception "HMAC does not authenticate, is something bad going on?")

/-- The first withdrawal of the relay's session `[7]`, as recorded on the wire. -/
def recorded : Bytes := [0] ++ List.replicate 20 9 ++ [7] ++ [1, 0, 1, 1]

/-- The recorded message again after its number has reached the row, and the next one. -/
def replayedLater : List SessionAction :=
  [.login (List.replicate 20 9) "kans" [7], .advance 0, .advance 0, .connect, .string 0 recorded,
    .advance 0, .advance 0, .advance 0, .lost 0, .connect, .string 1 recorded, .advance 0, .advance 0,
    .connect, .string 2 ([0] ++ List.replicate 20 9 ++ [7] ++ [1, 0, 2, 2]), .advance 0, .advance 0]

theorem handled_at_most_once_replayed_later :
    ∃ t, Run (step markedDecrypt) (fun s a => s.FreshKeys a ∧ s.Serialised markedDecrypt a) initial
        replayedLater t ∧ t.handled = [([7], 1), ([7], 2)] ∧ t.handled.Nodup := by
  have hend : (exec (step markedDecrypt) initial replayedLater).any (fun t =>
      decide (t.handled = [([7], 1), ([7], 2)])) = true := by decide
  have hok : EachStep (step markedDecrypt)
      (fun s a => s.FreshKeys a ∧ s.Serialised markedDecrypt a) initial replayedLater := by
    decide
  obtain ⟨t, hrun, hend⟩ := exists_run hend hok
  exact ⟨t, hrun, of_decide_eq_true hend, handled_at_most_once markedDecrypt t replayedLater hrun⟩

/-- The recorded message on two connections that both read the row before it is updated. -/
def replayedAtOnce : List SessionAction :=
  [.login (List.replicate 20 9) "kans" [7], .advance 0, .advance 0, .connect, .connect,
    .string 0 recorded, .string 1 recorded, .advance 0, .advance 0, .advance 0, .advance 0]

theorem replayed_at_once_handled_twice :
    ∃ t, Run (step markedDecrypt) FreshKeys initial replayedAtOnce t ∧ ¬ t.handled.Nodup := by
  have hend : (exec (step markedDecrypt) initial replayedAtOnce).any (fun t =>
      decide (¬ t.handled.Nodup)) = true := by decide
  have hok : EachStep (step markedDecrypt) FreshKeys initial replayedAtOnce := by decide
  obtain ⟨t, hrun, hend⟩ := exists_run hend hok
  exact ⟨t, hrun, of_decide_eq_true hend⟩

end Sessions

end BitBlinder.Bank
