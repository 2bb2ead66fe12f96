import BitBlinder.Basic

/-!
# Exit policies

`ExitPolicyLine` and `Router.will_exit_to` of `core/tor/TorCtl.py`, and
`Relay.will_exit_to` of `core/tor/Relay.py`. A policy is decided by its first
line that matches. A query without a host or without a port looks for any
accepting line instead. `aton` is `isIPAddress` with `inet_aton`.
-/

namespace BitBlinder.Tor.Paths

set_option autoImplicit false

open Struct (Bytes)

abbrev Address := BitVec 32

/-- What stands in front of the port of a line: `*`, an address, or an address with a mask or with
a prefix length. There is no line with a longer prefix. -/
inductive IpMask where
  | any
  | address (ip : Address)
  | dotted (ip mask : Address)
  | slash (ip : Address) (length : Nat) (bounded : length ≤ 32)

inductive Ports where
  | any
  | single (port : Nat)
  | range (portLow portHigh : Nat)

/-- `accepts` is `match`. -/
structure ExitPolicyLine where
  accepts : Bool
  ip : Address
  netmask : Address
  portLow : Nat
  portHigh : Nat
  deriving DecidableEq

namespace ExitPolicyLine

/-- The mask of a prefix is a negative number in the source; an address meets its lower 32 bits. -/
def new (accepts : Bool) (ipMask : IpMask) (ports : Ports) : ExitPolicyLine :=
  let (ip, netmask) : Address × Address :=
    match ipMask with
    | .any => (0, 0)
    | .address ip => (ip, BitVec.allOnes 32)
    | .dotted ip mask => (ip, mask)
    | .slash ip length _ => (ip, ~~~BitVec.ofNat 32 (2 ^ (32 - length) - 1))
  let (portLow, portHigh) :=
    match ports with
    | .any => (0, 65535)
    | .single port => (port, port)
    | .range portLow portHigh => (portLow, portHigh)
  { accepts, ip := ip &&& netmask, netmask, portLow, portHigh }

def CoversHost (line : ExitPolicyLine) (ip : Address) : Prop := ip &&& line.netmask = line.ip

def CoversPort (line : ExitPolicyLine) (port : Nat) : Prop := line.portLow ≤ port ∧ port ≤ line.portHigh

instance (line : ExitPolicyLine) (ip : Address) : Decidable (line.CoversHost ip) := inferInstanceAs (Decidable (_ = _))

instance (line : ExitPolicyLine) (port : Nat) : Decidable (line.CoversPort port) := inferInstanceAs (Decidable (_ ∧ _))

/-- Nothing is -1 in the source. -/
def check (line : ExitPolicyLine) (ip : Address) (port : Nat) : Option Bool :=
  if line.CoversHost ip then
    if line.CoversPort port then some line.accepts else none
  else none

end ExitPolicyLine

/-- The loop of `Router.will_exit_to`. -/
def firstMatch (ip : Address) (port : Nat) : List ExitPolicyLine → Bool
  | [] => false
  | line :: exitpolicy =>
    match line.check ip port with
    | some ret => ret
    | none => firstMatch ip port exitpolicy

structure Router where
  idhex : String
  nickname : String
  bw : Int
  exitpolicy : List ExitPolicyLine
  flags : List String
  country : String
  allowsDHT : Bool
  deriving DecidableEq

def Router.willExitTo (desc : Router) (ip : Address) (port : Nat) : Bool := firstMatch ip port desc.exitpolicy

/-- A host as it is passed around: nothing, a number, or a text. -/
inductive Host where
  | none
  | int (ip : Address)
  | str (text : Bytes)

namespace Host

/-- Whether Python takes it for true. -/
def given : Host → Bool
  | none => false
  | int ip => ip ≠ 0
  | str text => text ≠ []

/-- The test that makes a number of an address; it is for texts only. -/
def intHost (aton : Bytes → Option Address) : Host → Option Address
  | str text => if text = [] then .none else aton text
  | _ => .none

/-- The host is this address, as a number or as a text. -/
def Denotes (aton : Bytes → Option Address) (host : Host) (ip : Address) : Prop :=
  host = int ip ∨ ∃ text, text ≠ [] ∧ host = str text ∧ aton text = some ip

end Host

/-- A relay of which the descriptor is known. `number` tells it from any other object. -/
structure Relay where
  number : Nat
  desc : Router
  connectionFailures : Nat
  deriving DecidableEq

namespace Relay

def willExitToPort (relay : Relay) (port : Nat) : Bool :=
  relay.desc.exitpolicy.any fun line => line.CoversPort port && line.accepts

def willExitToHost (relay : Relay) (host : Address) : Bool :=
  relay.desc.exitpolicy.any fun line => line.CoversHost host && line.accepts

/-- `Relay.will_exit_to`; an address or a port of 0 counts as none. -/
def willExitTo (aton : Bytes → Option Address) (host : Host) (port : Option Nat) (protocol : String) (relay : Relay) :
    PyExcept Bool :=
  if protocol = "DHT" then .ok relay.desc.allowsDHT
  else if protocol ≠ "TCP" then .error (.valueError ("Bad value for protocol:  " ++ protocol))
  else if !host.given ∧ port.getD 0 = 0 then .ok true
  else
    let intHost := (host.intHost aton).getD 0
    match port with
    | none => .error .typeError
    | some port =>
      if intHost ≠ 0 ∧ port ≠ 0 then .ok (relay.desc.willExitTo intHost port)
      else if intHost ≠ 0 then .ok (relay.willExitToHost intHost)
      else if port ≠ 0 then .ok (relay.willExitToPort port)
      else .ok false

end Relay

/-! ### What a policy accepts -/

/-- An accepting line for the host and the port, with no rejecting one before it. -/
def Accepts (ip : Address) (port : Nat) (exitpolicy : List ExitPolicyLine) : Prop :=
  ∃ before line after, exitpolicy = before ++ line :: after ∧ line.accepts = true ∧ line.CoversHost ip ∧
    line.CoversPort port ∧ ∀ other ∈ before, other.accepts = false → other.CoversHost ip → ¬other.CoversPort port

/-- Some accepting line for the port is left some address by the rejecting lines before it. -/
def OffersPort (port : Nat) (exitpolicy : List ExitPolicyLine) : Prop := ∃ ip, Accepts ip port exitpolicy

/-- Some accepting line for the host is left some port by the rejecting lines before it. -/
def OffersHost (ip : Address) (exitpolicy : List ExitPolicyLine) : Prop :=
  ∃ port, 1 ≤ port ∧ port ≤ 65535 ∧ Accepts ip port exitpolicy

section
variable {ip : Address} {port : Nat} {line : ExitPolicyLine} {exitpolicy : List ExitPolicyLine}

theorem check_eq_some {ret : Bool} :
    line.check ip port = some ret ↔ line.CoversHost ip ∧ line.CoversPort port ∧ line.accepts = ret := by
  unfold ExitPolicyLine.check
  rw [Option.ite_none_right_eq_some, Option.ite_none_right_eq_some, Option.some.injEq]

theorem accepts_cons_of_match (hhost : line.CoversHost ip) (hport : line.CoversPort port) :
    Accepts ip port (line :: exitpolicy) ↔ line.accepts = true := by
  constructor
  · rintro ⟨before, accepting, after, heq, haccepts, -, -, hbefore⟩
    cases before with
    | nil =>
      obtain ⟨rfl, -⟩ := List.cons_eq_cons.mp heq
      exact haccepts
    | cons first before =>
      obtain ⟨rfl, -⟩ := List.cons_eq_cons.mp heq
      by_contra hreject
      exact hbefore line List.mem_cons_self (by simpa using hreject) hhost hport
  · intro haccepts
    exact ⟨[], line, exitpolicy, rfl, haccepts, hhost, hport, fun other hother => by cases hother⟩

theorem accepts_cons_of_no_match (h : line.check ip port = none) :
    Accepts ip port (line :: exitpolicy) ↔ Accepts ip port exitpolicy := by
  have hother : line.CoversHost ip → ¬line.CoversPort port := by
    intro hhost hport
    have hsome := check_eq_some.mpr ⟨hhost, hport, rfl⟩
    rw [h] at hsome
    cases hsome
  constructor
  · rintro ⟨before, accepting, after, heq, haccepts, hhost, hport, hbefore⟩
    cases before with
    | nil =>
      obtain ⟨rfl, -⟩ := List.cons_eq_cons.mp heq
      exact absurd hport (hother hhost)
    | cons first before =>
      obtain ⟨-, rfl⟩ := List.cons_eq_cons.mp heq
      exact ⟨before, accepting, after, rfl, haccepts, hhost, hport,
        fun other hmem => hbefore other (List.mem_cons_of_mem first hmem)⟩
  · rintro ⟨before, accepting, after, rfl, haccepts, hhost, hport, hbefore⟩
    refine ⟨line :: before, accepting, after, rfl, haccepts, hhost, hport, ?_⟩
    intro other hmem
    rcases List.mem_cons.mp hmem with rfl | hmem
    · exact fun _ => hother
    · exact hbefore other hmem

/-- The first line that matches is accepting if and only if an accepting line matches before any
rejecting one. -/
theorem firstMatch_iff : firstMatch ip port exitpolicy = true ↔ Accepts ip port exitpolicy := by
  induction exitpolicy with
  | nil =>
    refine iff_of_false Bool.false_ne_true ?_
    rintro ⟨before, line, after, heq, -⟩
    exact List.append_ne_nil_of_right_ne_nil _ (List.cons_ne_nil line after) heq.symm
  | cons line exitpolicy ih =>
    cases hcheck : line.check ip port with
    | none => rw [firstMatch, hcheck, accepts_cons_of_no_match hcheck, ih]
    | some ret =>
      obtain ⟨hhost, hport, rfl⟩ := check_eq_some.mp hcheck
      rw [firstMatch, hcheck, accepts_cons_of_match hhost hport]

theorem Accepts.exists_line (h : Accepts ip port exitpolicy) :
    ∃ line ∈ exitpolicy, line.accepts = true ∧ line.CoversHost ip ∧ line.CoversPort port := by
  obtain ⟨before, line, after, rfl, haccepts, hhost, hport, -⟩ := h
  exact ⟨line, List.mem_append_right before List.mem_cons_self, haccepts, hhost, hport⟩

theorem willExitToPort_iff (relay : Relay) :
    relay.willExitToPort port = true ↔ ∃ line ∈ relay.desc.exitpolicy, line.accepts = true ∧ line.CoversPort port := by
  simp only [Relay.willExitToPort, List.any_eq_true, Bool.and_eq_true, decide_eq_true_eq, and_comm]

/-- What a policy accepts at all is found when only the port is asked for. -/
theorem willExitToPort_of_willExitTo {relay : Relay} (h : relay.desc.willExitTo ip port = true) :
    relay.willExitToPort port = true := by
  obtain ⟨line, hline, haccepts, -, hport⟩ := (firstMatch_iff.mp h).exists_line
  exact (willExitToPort_iff relay).mpr ⟨line, hline, haccepts, hport⟩

end

/-! ### Queries with a wildcard -/

section
variable (aton : Bytes → Option Address) (relay : Relay)

theorem willExitTo_tcp (host : Host) (port : Option Nat) :
    relay.willExitTo aton host port "TCP" =
      if !host.given ∧ port.getD 0 = 0 then .ok true
      else
        match port with
        | none => .error .typeError
        | some port =>
          if (host.intHost aton).getD 0 ≠ 0 ∧ port ≠ 0 then
            .ok (relay.desc.willExitTo ((host.intHost aton).getD 0) port)
          else if (host.intHost aton).getD 0 ≠ 0 then .ok (relay.willExitToHost ((host.intHost aton).getD 0))
          else if port ≠ 0 then .ok (relay.willExitToPort port)
          else .ok false := by
  unfold Relay.willExitTo
  rw [if_neg (by decide), if_neg (by decide)]

theorem willExitTo_port {port : Nat} (hport : port ≠ 0) :
    relay.willExitTo aton .none (some port) "TCP" = .ok (relay.willExitToPort port) := by
  rw [willExitTo_tcp]
  simp [Host.intHost, hport]

theorem willExitTo_nothing {host : Host} (hgiven : host.given = false) :
    relay.willExitTo aton host none "TCP" = .ok true := by
  rw [willExitTo_tcp]
  simp [hgiven]

/-- Without a port there is nothing to convert to a number. -/
theorem willExitTo_host {host : Host} (hgiven : host.given = true) :
    relay.willExitTo aton host none "TCP" = .error .typeError := by
  rw [willExitTo_tcp]
  simp [hgiven]

/-- A query without a host agrees with the policy if and only if an accepting line for the port, if
there is one, is not hidden for every address; one without a port raises an exception, so that it
agrees only when nothing is accepted. The address 0 as a number is no host. -/
theorem willExitTo_wildcard_iff :
    (∀ port : Nat,
      ((relay.willExitTo aton .none (some port) "TCP" = .ok true ↔ ∃ ip, relay.desc.willExitTo ip port = true) ↔
        ((port = 0 ∨ ∃ line ∈ relay.desc.exitpolicy, line.accepts = true ∧ line.CoversPort port) →
          OffersPort port relay.desc.exitpolicy))) ∧
    ∀ (host : Host) (ip : Address), host.Denotes aton ip →
      ((relay.willExitTo aton host none "TCP" = .ok true ↔
          ∃ port, 1 ≤ port ∧ port ≤ 65535 ∧ relay.desc.willExitTo ip port = true) ↔
        (OffersHost ip relay.desc.exitpolicy ↔ host = .int 0)) := by
  have hoffers : ∀ port, (∃ ip, relay.desc.willExitTo ip port = true) ↔ OffersPort port relay.desc.exitpolicy :=
    fun port => exists_congr fun ip => firstMatch_iff
  refine ⟨fun port => ?_, fun host ip hdenotes => ?_⟩
  · rw [hoffers]
    have hreturns : relay.willExitTo aton .none (some port) "TCP" = .ok true ↔
        port = 0 ∨ ∃ line ∈ relay.desc.exitpolicy, line.accepts = true ∧ line.CoversPort port := by
      by_cases hport : port = 0
      · subst hport
        exact iff_of_true rfl (Or.inl rfl)
      · rw [willExitTo_port aton relay hport, Except.ok.injEq, willExitToPort_iff]
        exact (or_iff_right hport).symm
    rw [hreturns]
    refine ⟨Iff.mp, fun h => ⟨h, ?_⟩⟩
    rintro ⟨ip, haccepts⟩
    obtain ⟨line, hline, haccepting, -, hcovers⟩ := haccepts.exists_line
    exact Or.inr ⟨line, hline, haccepting, hcovers⟩
  · have haccepted : (∃ port, 1 ≤ port ∧ port ≤ 65535 ∧ relay.desc.willExitTo ip port = true) ↔
        OffersHost ip relay.desc.exitpolicy :=
      exists_congr fun port => and_congr_right fun _ => and_congr_right fun _ => firstMatch_iff
    have hreturns : relay.willExitTo aton host none "TCP" = .ok true ↔ host = .int 0 := by
      rcases hdenotes with rfl | ⟨text, htext, rfl, -⟩
      · by_cases hzero : ip = 0
        · subst hzero
          exact iff_of_true (willExitTo_nothing aton relay rfl) rfl
        · have hgiven : (Host.int ip).given = true := decide_eq_true hzero
          rw [willExitTo_host aton relay hgiven]
          exact iff_of_false nofun fun heq => hzero (Host.int.inj heq)
      · rw [willExitTo_host aton relay (by simp [Host.given, htext])]
        simp
    rw [haccepted, hreturns]
    exact ⟨Iff.symm, Iff.symm⟩

end

/-- A relay with this policy. -/
def exampleRelay (number : Nat) (idhex : String) (exitpolicy : List ExitPolicyLine) : Relay where
  number := number
  desc := {
    idhex, nickname := "relay", bw := 50000, exitpolicy, flags := ["Running"], country := "US", allowsDHT := false }
  connectionFailures := 0

/-- The texts that are addresses here. -/
def exampleAton (text : Bytes) : Option Address :=
  if text = "192.0.2.1".toUTF8.toList then some 0xC0000201 else none

theorem willExitTo_wildcard_iff_address :
    (∃ text, Host.Denotes exampleAton (.str text) 0xC0000201) ∧
      ((exampleRelay 1 "A" []).willExitTo exampleAton (.str "192.0.2.1".toUTF8.toList) none "TCP" = .ok true ↔
        ∃ port, 1 ≤ port ∧ port ≤ 65535 ∧ (exampleRelay 1 "A" []).desc.willExitTo 0xC0000201 port = true) := by
  have hdenotes : Host.Denotes exampleAton (.str "192.0.2.1".toUTF8.toList) 0xC0000201 :=
    Or.inr ⟨_, by decide +kernel, rfl, by decide +kernel⟩
  refine ⟨⟨_, hdenotes⟩, ((willExitTo_wildcard_iff exampleAton (exampleRelay 1 "A" [])).2 _ _ hdenotes).mpr ?_⟩
  refine iff_of_false ?_ (by simp)
  rintro ⟨port, -, -, haccepts⟩
  obtain ⟨line, hline, -⟩ := haccepts.exists_line
  cases hline

def rejectsWeb : List ExitPolicyLine := [.new false .any (.single 80), .new true .any .any]

def acceptsAll : List ExitPolicyLine := [.new true .any .any]

/-- Port 80 is rejected everywhere by the first line, but found in the second; and an address that
is accepted everywhere cannot be asked for without a port. -/
theorem wildcard_disagrees :
    ((exampleRelay 1 "A" rejectsWeb).willExitTo exampleAton .none (some 80) "TCP" = .ok true ∧
      ∀ ip, (exampleRelay 1 "A" rejectsWeb).desc.willExitTo ip 80 = false) ∧
    (exampleRelay 1 "A" acceptsAll).willExitTo exampleAton (.str "192.0.2.1".toUTF8.toList) none "TCP" = .error .typeError ∧
      (exampleRelay 1 "A" acceptsAll).desc.willExitTo 0xC0000201 80 = true := by
  refine ⟨⟨by decide, fun ip => ?_⟩, by decide +kernel, by decide⟩
  have hcheck : (ExitPolicyLine.new false .any (.single 80)).check ip 80 = some false :=
    check_eq_some.mpr ⟨by simp [ExitPolicyLine.CoversHost, ExitPolicyLine.new], by decide, rfl⟩
  simp only [Router.willExitTo, exampleRelay, rejectsWeb, firstMatch, hcheck]

end BitBlinder.Tor.Paths
