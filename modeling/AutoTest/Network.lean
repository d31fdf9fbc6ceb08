import Mathlib.Logic.Function.Basic
import AutoTest.Strtok

/-! The client registry of `at_network.c`: four arrays of ten entries, and the
descriptor table of the process that its sockets live in. -/

namespace AutoTest

open CString Strtok

/-- Undefined behaviour the program can run into. -/
inductive Fault where
  /-- a token entry that no line has set -/
  | unset
  /-- an index outside its array -/
  | bounds
  /-- a string longer than its buffer -/
  | overflow
  /-- a directive in a format without its argument -/
  | format
  /-- a null stream or an uninitialised variable -/
  | invalid
  /-- a thread that was never created, or is already joined -/
  | thread
  /-- a call that does not return -/
  | diverge
  deriving DecidableEq, Repr

def minClient : Int := 0
def maxClient : Int := 10
def maxIpLenth : Nat := 20
def serverPort : Nat := 5000
def used : Int := 1
/-- `UNUSED` and `ERROR` are both zero, and the code lets them coincide. -/
def unused : Int := 0
def error : Int := 0
def failed : Int := -1

inductive AtStat where
  | ok
  | failed
  | error
  deriving DecidableEq, Repr

/-- The values of `atstat_e`. -/
def AtStat.toInt : AtStat → Int
  | .ok => 0
  | .failed => 1
  | .error => 2

abbrev Client := Fin 10

/-- The array index a client number names, when it passes the range test. -/
def clientIndex (clientNum : Int) : Option Client :=
  if h : minClient ≤ clientNum ∧ clientNum ≤ maxClient - 1 then
    some ⟨clientNum.toNat, by
      have hlo : (0 : Int) ≤ clientNum := h.1
      have hhi : clientNum ≤ 10 - 1 := h.2
      omega⟩
  else none

structure SockAddr where
  family : Nat
  port : Nat
  addr : Nat
  deriving DecidableEq, Repr

def SockAddr.zero : SockAddr := ⟨0, 0, 0⟩

def afInet : Nat := 2

/-- The address parsers of the C library. `inet_pton` accepts dotted quads
only, which have at most fifteen characters, and `inet_aton` agrees there. -/
structure Inet where
  pton : Text → Option Nat
  aton : Text → Option Nat
  short : ∀ t v, pton t = some v → t.length ≤ 15
  agree : ∀ t v, pton t = some v → aton t = some v

def octet (t : Text) : Bool :=
  t ≠ [] && t.all Char.isDigit && decide (decimal t ≤ 255) && (t.length = 1 || t.head? ≠ some '0')

/-- Four octets without leading zeros, first octet first. -/
def dottedQuad (t : Text) : Option Nat :=
  let octets := t.splitOnP (· = '.')
  if t.length ≤ 15 ∧ octets.length = 4 ∧ octets.all octet then
    some (octets.foldl (fun n o => 256 * n + decimal o) 0)
  else none

def Inet.strict : Inet where
  pton := dottedQuad
  aton := dottedQuad
  short t v h := by
    have quad := Option.isSome_of_mem h
    simp only [dottedQuad, Option.isSome_ite] at quad
    exact quad.1
  agree _ _ h := h

/-- What an open descriptor is. -/
inductive Holder where
  | client (n : Client)
  | other
  deriving DecidableEq, Repr

structure Net where
  gClientFlag : Client → Int
  gSockets : Client → Int
  gClientIpAddr : Client → List Cell
  clientSockAddr : Client → SockAddr
  /-- the open descriptors -/
  fds : Int → Option Holder
  /-- each `close` of `closeSocket`: the client removed and what was closed -/
  closed : List (Client × Option Holder)
  /-- the number of `socket` calls so far -/
  socketCalls : Nat

def Net.empty (fds : Int → Option Holder) : Net where
  gClientFlag := fun _ => unused
  gSockets := fun _ => 0
  gClientIpAddr := fun _ => List.replicate maxIpLenth none
  clientSockAddr := fun _ => .zero
  fds := fds
  closed := []
  socketCalls := 0

namespace Net

/-- `socket` returns some descriptor that is not open, or -1. -/
def socket (answer : Nat → Int) (n : Client) (s : Net) : Int × Net :=
  let d := answer s.socketCalls
  let s := { s with socketCalls := s.socketCalls + 1 }
  if 0 ≤ d ∧ s.fds d = none then
    (d, { s with fds := Function.update s.fds d (some (.client n)) })
  else (failed, s)

def getSocket (clientNum : Int) (s : Net) : Int :=
  match clientIndex clientNum with
  | none => error
  | some n => if s.gClientFlag n = unused then error else s.gSockets n

/-- `strncpy` without the terminator, which the next statement writes. -/
def setClientIpAddr (clientNum : Int) (ipAddr : Text) (s : Net) : Except Fault Net :=
  match clientIndex clientNum with
  | none => .ok s
  | some n =>
    if ipAddr.length < maxIpLenth then
      let old := s.gClientIpAddr n
      let new := cells ipAddr ++ none :: old.drop (ipAddr.length + 1)
      .ok { s with gClientIpAddr := Function.update s.gClientIpAddr n new }
    else .error .overflow

def getClientIpAddr (clientNum : Int) (s : Net) : Option Text :=
  (clientIndex clientNum).map fun n => cstring (s.gClientIpAddr n)

def setClientFlag (clientNum flag : Int) (s : Net) : Net :=
  match clientIndex clientNum with
  | none => s
  | some n => { s with gClientFlag := Function.update s.gClientFlag n flag }

def getClientFlag (clientNum : Int) (s : Net) : Int :=
  match clientIndex clientNum with
  | none => error
  | some n => s.gClientFlag n

def setClientSockAddr (clientNum : Int) (addr : SockAddr) (s : Net) : Net :=
  match clientIndex clientNum with
  | none => s
  | some n => { s with clientSockAddr := Function.update s.clientSockAddr n addr }

/-- Out of range the function returns no value. -/
def getClientSockAddr (clientNum : Int) (s : Net) : Except Fault SockAddr :=
  match clientIndex clientNum with
  | none => .error .invalid
  | some n => .ok (s.clientSockAddr n)

def delClientSockAddr (clientNum : Int) (s : Net) : Net :=
  setClientSockAddr clientNum .zero s

/-- No range test, and the entry of `gSockets` is kept. -/
def closeSocket (clientNum : Int) (s : Net) : Except Fault Net :=
  match clientIndex clientNum with
  | none => .error .bounds
  | some n =>
    let d := s.gSockets n
    if d ≠ error then
      .ok { s with fds := Function.update s.fds d none, closed := s.closed ++ [(n, s.fds d)] }
    else .ok s

def isValidIp (inet : Inet) (inStr : Text) : Bool := (inet.pton inStr).isSome

/-- `inet_aton` reports a bad address by zero, so the test for a negative
result never fires. -/
def networkConfig (inet : Inet) (answer : Nat → Int) (cNum : Int) (ipAddr : Text) (s : Net) :
    AtStat × Net :=
  match clientIndex cNum with
  | none => (.failed, s)
  | some n =>
    if !isValidIp inet ipAddr then (.failed, s)
    else if s.gClientFlag n = used then (.failed, s)
    else
      let clientAddr : SockAddr := ⟨afInet, serverPort, (inet.aton ipAddr).getD 0⟩
      let (d, s) := s.socket answer n
      let s := { s with gSockets := Function.update s.gSockets n d }
      if d = failed then (.failed, s) else (.ok, setClientSockAddr cNum clientAddr s)

def changeClientAddr (inet : Inet) (answer : Nat → Int) (cNum : Int) (ipAddr : Text) (s : Net) :
    AtStat × Net :=
  match networkConfig inet answer cNum ipAddr s with
  | (.failed, s) => (.failed, s)
  | (_, s) => (.ok, s)

end Net

theorem clientIndex_some {clientNum : Int} {n : Client} (h : clientIndex clientNum = some n) :
    clientNum = n := by
  unfold clientIndex at h
  split at h
  · rename_i range
    have hlo : (0 : Int) ≤ clientNum := range.1
    cases h
    simp [Int.toNat_of_nonneg hlo]
  · cases h

@[simp] theorem clientIndex_cast (n : Client) : clientIndex n = some n := by
  have range : minClient ≤ (n : Int) ∧ (n : Int) ≤ maxClient - 1 := by
    simp only [minClient, maxClient]
    omega
  simp [clientIndex, range]

theorem clientIndex_none {clientNum : Int} :
    clientIndex clientNum = none ↔ clientNum < 0 ∨ 10 ≤ clientNum := by
  unfold clientIndex minClient maxClient
  split
  · simp; omega
  · simp; omega

end AutoTest
