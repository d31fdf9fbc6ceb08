import AutoTest.StartIdle

/-!
# The port of the receive thread

`syslogServerInit` over the sockets that the receive threads of this process
have opened and never closed.

* `syslogServerInit_run`: the loop takes the first port of `triedPorts` that
  is free.
* `syslog_port_iff`: the calls that tell the truth about the port.
-/

namespace AutoTest

open CString Program

/-! ## The function -/

def syslogPort : Int := 5001
def ok : Int := 1

inductive PortOp where
  /-- `syslogSockFd = fd` -/
  | setSockFd (fd : Int)
  /-- `socket(AF_INET, SOCK_DGRAM, 0)` -/
  | socket
  /-- `bind` of a socket to a port of all interfaces -/
  | bind (fd portnumber : Int)
  /-- `gSyslogPort = portnumber` -/
  | setPort (portnumber : Int)
  | printf (text : Text)

abbrev PortOp.Res : PortOp → Type
  | .setSockFd _ => Unit
  | .socket => Int
  | .bind _ _ => Int
  | .setPort _ => Unit
  | .printf _ => Unit

abbrev portSig : Signature := ⟨PortOp, PortOp.Res⟩

namespace Port

def setSockFd (fd : Int) : Prog portSig Unit := .op (.setSockFd fd) .pure
def socket : Prog portSig Int := .op .socket .pure
def bind (fd portnumber : Int) : Prog portSig Int := .op (.bind fd portnumber) .pure
def setPort (portnumber : Int) : Prog portSig Unit := .op (.setPort portnumber) .pure
def printf (text : Text) : Prog portSig Unit := .op (.printf text) .pure

end Port

/-- The rest of the loop, where `i` is its variable. -/
def bindLoop (fd : Int) : Nat → Int → Int → Prog portSig Unit
  | 0, _, _ => pure ()
  | n + 1, i, portnumber => do
    let portnumber := portnumber + i
    if (← Port.bind fd portnumber) = AtStat.ok.toInt then Port.setPort portnumber
    else bindLoop fd n (i + 1) portnumber

/-- `socket` is compared with `AT_ERROR`, which is two, and nothing looks at
how the loop ended. -/
def syslogServerInit : Prog portSig Int := do
  Port.setSockFd 0
  let fd ← Port.socket
  Port.setSockFd fd
  if fd = AtStat.error.toInt then
    Port.printf "Socket create error\n".toList
    pure failed
  else
    bindLoop fd 20 0 syslogPort
    pure ok

/-! ## Sockets -/

structure Socket where
  fd : Int
  port : Option Int
  deriving DecidableEq, Repr

structure Ports where
  syslogSockFd : Int
  gSyslogPort : Int
  /-- the open sockets of this and of earlier receive threads -/
  sockets : List Socket
  /-- the texts printed -/
  out : List Text
  deriving DecidableEq, Repr

/-- What a call meets: the answer of `socket`, and the ports of other programs. -/
structure Outside where
  socket : Int
  occupied : Int → Bool

namespace Ports

def initial : Ports := ⟨0, error, [], []⟩

/-- A descriptor that is not open, or -1. -/
def socket (out : Outside) (p : Ports) : Int :=
  if 0 ≤ out.socket ∧ out.socket ∉ p.sockets.map Socket.fd then out.socket else failed

def created (fd : Int) (p : Ports) : Ports :=
  if fd = failed then p else { p with sockets := p.sockets ++ [⟨fd, none⟩] }

def free (out : Outside) (port : Int) (p : Ports) : Bool :=
  !out.occupied port && p.sockets.all fun s => s.port ≠ some port

/-- `bind` wants a socket without a port, and a port that is free. -/
def accepts (out : Outside) (fd port : Int) (p : Ports) : Bool :=
  decide (0 ≤ fd) && decide (⟨fd, none⟩ ∈ p.sockets) && p.free out port

def bound (fd port : Int) (p : Ports) : Ports :=
  { p with sockets := p.sockets.map fun s => if s = ⟨fd, none⟩ then ⟨fd, some port⟩ else s }

end Ports

def portStep (out : Outside) : Interp portSig Fault Ports
  | .setSockFd fd, p => .ok ((), { p with syslogSockFd := fd })
  | .socket, p => .ok (p.socket out, p.created (p.socket out))
  | .bind fd port, p => if p.accepts out fd port then .ok (0, p.bound fd port) else .ok (failed, p)
  | .setPort port, p => .ok ((), { p with gSyslogPort := port })
  | .printf text, p => .ok ((), { p with out := p.out ++ [text] })

/-- The ports that the loop comes to. -/
def portsFrom : Nat → Int → Int → List Int
  | 0, _, _ => []
  | n + 1, i, portnumber => (portnumber + i) :: portsFrom n (i + 1) (portnumber + i)

def triedPorts : List Int := portsFrom 20 0 syslogPort

example : triedPorts.take 5 = [5001, 5002, 5004, 5007, 5011] := by decide

/-- What the loop leaves when `found` is the port it ends at. -/
def Ports.settled (fd : Int) (found : Option Int) (p : Ports) : Ports :=
  match found with
  | none => p
  | some port => { p.bound fd port with gSyslogPort := port }

theorem bindLoop_run (out : Outside) (fd : Int) (n : Nat) (i portnumber : Int) (p : Ports) :
    (bindLoop fd n i portnumber).run (portStep out) p =
      .ok ((), p.settled fd ((portsFrom n i portnumber).find? fun port =>
        p.accepts out fd port)) := by
  induction n generalizing i portnumber with
  | zero => rfl
  | succ n ih =>
    rw [bindLoop, portsFrom, List.find?_cons]
    cases accepted : p.accepts out fd (portnumber + i) with
    | false =>
      have refused : portStep out (.bind fd (portnumber + i)) p = .ok (failed, p) := by
        simp [portStep, accepted]
      exact (Prog.run_op_ok refused).trans (ih (i + 1) (portnumber + i))
    | true =>
      have taken : portStep out (.bind fd (portnumber + i)) p =
          .ok (0, p.bound fd (portnumber + i)) := by
        simp [portStep, accepted]
      exact (Prog.run_op_ok taken).trans rfl

/-- The state in which the loop starts. -/
def Ports.opened (out : Outside) (p : Ports) : Ports :=
  { p.created (p.socket out) with syslogSockFd := p.socket out }

theorem syslogServerInit_run (out : Outside) (p : Ports) :
    syslogServerInit.run (portStep out) p =
      if p.socket out = AtStat.error.toInt then
        .ok (failed, { p.opened out with out := p.out ++ ["Socket create error\n".toList] })
      else .ok (ok, (p.opened out).settled (p.socket out)
        (triedPorts.find? fun port => (p.opened out).accepts out (p.socket out) port)) := by
  have opened : syslogServerInit.run (portStep out) p =
      Prog.run (portStep out) (if p.socket out = AtStat.error.toInt then do
          Port.printf "Socket create error\n".toList
          pure failed
        else do
          bindLoop (p.socket out) 20 0 syslogPort
          pure ok) (p.opened out) := by
    have reset : ({ ({ p with syslogSockFd := 0 } : Ports).created (p.socket out) with
        syslogSockFd := p.socket out } : Ports) = p.opened out := by
      unfold Ports.opened Ports.created
      split <;> rfl
    rw [← reset]
    rfl
  have printed : (p.opened out).out = p.out := by
    unfold Ports.opened Ports.created
    split <;> rfl
  rw [opened]
  split
  · rw [← printed]
    rfl
  · exact Prog.run_bind_ok (bindLoop_run out (p.socket out) 20 0 syslogPort (p.opened out))

/-! ## One call -/

/-- What a call says with its result holds of the socket and the port. -/
structure Ports.Truthful (out : Outside) (before : Ports) (r : Int) (after : Ports) : Prop where
  bound : r = ok → 0 ≤ after.syslogSockFd ∧
    ⟨after.syslogSockFd, some after.gSyslogPort⟩ ∈ after.sockets
  refused : (before.socket out = failed ∨ ∀ port ∈ triedPorts, before.free out port = false) →
    r = failed

/-- The socket is number two, or there is one and a port for it. -/
def Ports.Serves (out : Outside) (p : Ports) : Prop :=
  p.socket out = AtStat.error.toInt ∨
    (p.socket out ≠ failed ∧ ∃ port ∈ triedPorts, p.free out port = true)

section Call

variable {out : Outside} {p : Ports}

theorem Ports.socket_nonneg (created : p.socket out ≠ failed) : 0 ≤ p.socket out := by
  unfold Ports.socket at created ⊢
  split at created
  · rename_i fresh
    rw [if_pos fresh]
    exact fresh.1
  · exact absurd rfl created

/-- A new socket takes no port away. -/
theorem Ports.opened_accepts (created : p.socket out ≠ failed) (port : Int) :
    (p.opened out).accepts out (p.socket out) port = p.free out port := by
  have valid := Ports.socket_nonneg created
  have sockets : (p.opened out).sockets = p.sockets ++ [⟨p.socket out, none⟩] := by
    rw [Ports.opened, Ports.created, if_neg created]
  simp [Ports.accepts, Ports.free, sockets, valid]

theorem Ports.settled_bound (created : p.socket out ≠ failed) (port : Int) :
    ⟨p.socket out, some port⟩ ∈ ((p.opened out).settled (p.socket out) (some port)).sockets := by
  have sockets : (p.opened out).sockets = p.sockets ++ [⟨p.socket out, none⟩] := by
    rw [Ports.opened, Ports.created, if_neg created]
  simp [Ports.settled, Ports.bound, sockets]

theorem truthful_iff {r : Int} {after : Ports}
    (hrun : syslogServerInit.run (portStep out) p = .ok (r, after)) :
    p.Truthful out r after ↔ p.Serves out := by
  rw [syslogServerInit_run] at hrun
  split at hrun
  · rename_i two
    obtain ⟨rfl, rfl⟩ := Prod.mk.inj (Except.ok.inj hrun)
    refine iff_of_true ⟨fun returned => ?_, fun _ => rfl⟩ (.inl two)
    exact absurd returned (by decide)
  · rename_i other
    obtain ⟨rfl, rfl⟩ := Prod.mk.inj (Except.ok.inj hrun)
    constructor
    · intro truthful
      have returned : ok ≠ failed := by decide
      have created : p.socket out ≠ failed :=
        fun failing => returned (truthful.refused (.inl failing))
      refine .inr ⟨created, ?_⟩
      by_contra none_free
      apply returned
      apply truthful.refused
      right
      intro port tried
      exact Bool.eq_false_iff.mpr fun free => none_free ⟨port, tried, free⟩
    · intro serves
      obtain ⟨created, port, tried, free⟩ := serves.resolve_left other
      constructor
      · intro _
        simp only [Ports.opened_accepts created]
        cases found : triedPorts.find? fun port => p.free out port with
        | none => exact absurd free (by simpa using List.find?_eq_none.mp found port tried)
        | some first => exact ⟨Ports.socket_nonneg created, Ports.settled_bound created first⟩
      · rintro (failing | all_taken)
        · exact absurd failing created
        · rw [all_taken port tried] at free
          cases free

end Call

/-! ## Commands -/

/-- `start rec`, whose thread performs so many operations of
`syslogServerInit` before the next command, and `stop rec`. -/
inductive RecCommand where
  | startRec (l : CmdLine .start) (args : l.args = [paramRec]) (out : Outside) (operations : Nat)
  | stopRec (l : CmdLine .stop) (args : l.args = [paramRec])

structure Session where
  world : World
  ports : Ports
  /-- what `syslogServerInit` returned, if the last command led to that -/
  returned : Option Int

namespace Session

def initial (fds : Int → Option Holder) : Session := ⟨⟨.initial, .initial fds⟩, .initial, none⟩

/-- A new receive thread. Stopping it closes no socket. -/
def receive (out : Outside) (operations : Nat) (s : Session) : Except Fault Session :=
  match syslogServerInit.runUpTo (portStep out) operations s.ports with
  | .ok (returned, ports) => .ok { s with ports := ports, returned := returned }
  | .error f => .error f

def step (host : Host) : RecCommand → Session → Except Fault Session
  | .startRec l _ out operations, s =>
    match exec host 1 l.line s.world with
    | .ok w =>
      if w.shared.thrRetReceiveId = s.world.shared.thrRetReceiveId then .ok ⟨w, s.ports, none⟩
      else ({ s with world := w }).receive out operations
    | .error f => .error f
  | .stopRec l _, s =>
    match exec host 1 l.line s.world with
    | .ok w => .ok ⟨w, s.ports, none⟩
    | .error f => .error f

/-- A call that came to its end in this step was truthful. -/
def Truthful : RecCommand → Session → Session → Prop
  | .startRec _ _ out _, s, t => ∀ r, t.returned = some r → s.ports.Truthful out r t.ports
  | .stopRec _ _, _, _ => True

/-- The command lets a call of `syslogServerInit` return. -/
def Returns (host : Host) (c : RecCommand) (s : Session) : Prop :=
  ∃ t, s.step host c = .ok t ∧ t.returned ≠ none

/-- A call that returns finds a socket and a port. -/
def Serves (host : Host) (c : RecCommand) (s : Session) : Prop :=
  match c with
  | .startRec _ _ out _ => s.Returns host c → s.ports.Serves out
  | .stopRec _ _ => True

/-- The handle of the receive thread can be joined. -/
def Joinable (s : Shared) : Prop := s.thrRetReceiveId ≠ 0 → s.joinable s.thrRetReceiveId = true

section Commands

variable (host : Host) {w : World}

theorem startRec_exec (l : CmdLine .start) (args : l.args = [paramRec])
    (joinable : Joinable w.shared) :
    ∃ w', exec host 1 l.line w = .ok w' ∧ Joinable w'.shared := by
  apply exec_leads
  apply l.leads
  intro p loaded
  have mode : p.param 1 = .ok paramRec := l.found_arg (by simp [args]) _ p loaded
  have count : p.gParamNum = 1 := by simpa [args] using l.found_count _ p loaded
  apply Prog.Leads.now rfl
  rw [if_neg (by simp [count])]
  apply Prog.Leads.now rfl
  apply Prog.Leads.now rfl
  apply param_leads mode
  rw [if_pos rfl]
  apply Prog.Leads.ite
  · intro running
    exact joinable
  · intro idle
    apply create_returns
    · intro refused
      exact joinable
    · intro id s fresh given now
      apply Prog.Leads.now rfl
      intro nonzero
      simp [now]

theorem stopRec_exec (l : CmdLine .stop) (args : l.args = [paramRec]) (joinable : Joinable w.shared) :
    ∃ w', exec host 1 l.line w = .ok w' ∧ Joinable w'.shared := by
  apply exec_leads
  apply l.leads
  intro p loaded
  have mode : p.param 1 = .ok paramRec := l.found_arg (by simp [args]) _ p loaded
  have count : p.gParamNum = 1 := by simpa [args] using l.found_count _ p loaded
  apply Prog.Leads.now rfl
  apply Prog.Leads.now rfl
  apply Prog.Leads.now rfl
  rw [if_neg (by simp [count])]
  apply param_leads mode
  rw [if_neg (by decide), if_neg (by decide), if_pos rfl]
  apply Prog.Leads.ite
  · intro running
    have known := joinable running
    apply Prog.Leads.now (r := ()) (t := { w with params := p })
    · simp only [interp, sharedStep, known, if_true]
    apply Prog.Leads.now (r := ())
    · simp only [interp, sharedStep, Shared.pthreadJoin, known, if_true, writing]
      rfl
    apply Prog.Leads.now rfl
    exact fun nonzero => absurd rfl nonzero
  · intro idle
    exact joinable

end Commands

theorem portStep_total (out : Outside) (o : PortOp) (p : Ports) : ∃ x, portStep out o p = .ok x := by
  cases o with
  | bind fd port =>
    simp only [portStep]
    split <;> exact ⟨_, rfl⟩
  | _ => exact ⟨_, rfl⟩

theorem receive_ok (out : Outside) (operations : Nat) (s : Session) :
    ∃ t, s.receive out operations = .ok t ∧ t.world = s.world ∧
      ∀ r, t.returned = some r → syslogServerInit.run (portStep out) s.ports = .ok (r, t.ports) := by
  obtain ⟨⟨returned, ports⟩, hrun⟩ :=
    Prog.runUpTo_total (portStep_total out) operations syslogServerInit s.ports
  refine ⟨{ s with ports := ports, returned := returned }, ?_, rfl, ?_⟩
  · simp only [receive, hrun]
  · rintro r rfl
    exact Prog.runUpTo_some hrun

/-- What the commands do, as far as the port is concerned. -/
theorem step_ok (host : Host) (c : RecCommand) {s : Session} (joinable : Joinable s.world.shared) :
    ∃ t, s.step host c = .ok t ∧ Joinable t.world.shared ∧ ∀ r, t.returned = some r →
      ∃ l args out operations, c = .startRec l args out operations ∧
        syslogServerInit.run (portStep out) s.ports = .ok (r, t.ports) := by
  cases c with
  | stopRec l args =>
    obtain ⟨w, hrun, kept⟩ := stopRec_exec host l args joinable
    refine ⟨⟨w, s.ports, none⟩, ?_, kept, ?_⟩
    · simp only [step, hrun]
    · intro r returned
      cases returned
  | startRec l args out operations =>
    obtain ⟨w, hrun, kept⟩ := startRec_exec host l args joinable
    by_cases same : w.shared.thrRetReceiveId = s.world.shared.thrRetReceiveId
    · refine ⟨⟨w, s.ports, none⟩, ?_, kept, ?_⟩
      · simp only [step, hrun, if_pos same]
      · intro r returned
        cases returned
    · obtain ⟨t, hreceive, hworld, ends⟩ :=
        ({ s with world := w } : Session).receive_ok out operations
      refine ⟨t, ?_, ?_, ?_⟩
      · simp only [step, hrun, if_neg same, hreceive]
      · rw [hworld]
        exact kept
      · intro r returned
        exact ⟨l, args, out, operations, rfl, ends r returned⟩

/-- Every command is carried out, and its call is truthful where it is served. -/
theorem step_serves (host : Host) (c : RecCommand) {s : Session}
    (joinable : Joinable s.world.shared) :
    ∃ t, s.step host c = .ok t ∧ Joinable t.world.shared ∧ (Truthful c s t ↔ s.Serves host c) := by
  obtain ⟨t, hstep, kept, ends⟩ := step_ok host c joinable
  refine ⟨t, hstep, kept, ?_⟩
  cases c with
  | stopRec l args => exact Iff.rfl
  | startRec l args out operations =>
    cases returned : t.returned with
    | none =>
      apply iff_of_true
      · intro r some
        rw [returned] at some
        cases some
      · rintro ⟨t', hstep', some⟩
        rw [hstep] at hstep'
        obtain rfl := Except.ok.inj hstep'
        exact absurd returned some
    | some r =>
      obtain ⟨_, _, _, _, same, hrun⟩ := ends r returned
      cases same
      have returns : s.Returns host (.startRec l args out operations) :=
        ⟨t, hstep, by simp [returned]⟩
      rw [Serves, imp_iff_right returns, ← truthful_iff hrun]
      simp only [Truthful, returned, Option.some.injEq, forall_eq']

/-- In a run every call tells the truth about its socket and its port exactly
when every call is served. -/
theorem syslog_port_iff (host : Host) (fds : Int → Option Holder) (cs : List RecCommand) :
    Throughout (fun c s => s.step host c) Truthful cs (initial fds) ↔
      Along (fun c s => s.step host c) (fun c s => s.Serves host c) cs (initial fds) := by
  have start : Joinable (initial fds).world.shared := fun nonzero => absurd rfl nonzero
  constructor
  · apply along_of_throughout fun s => Joinable s.world.shared
    · intro c s t joinable hstep truthful
      obtain ⟨t', hstep', kept, iff⟩ := step_serves host c joinable
      rw [hstep] at hstep'
      obtain rfl := Except.ok.inj hstep'
      exact ⟨iff.mp truthful, kept⟩
    · exact start
  · apply throughout_of_along fun s => Joinable s.world.shared
    · intro c s joinable serves
      obtain ⟨t, hstep, kept, iff⟩ := step_serves host c joinable
      exact ⟨t, hstep, iff.mpr serves, kept⟩
    · exact start

def startRecLine : CmdLine .start where
  line := "start rec".toList
  name := startTest.name
  args := [paramRec]
  cmdNum := startTest.cmdNum
  tokens := by decide +kernel
  code := startTest.code
  func := startTest.func

def stopRecLine : CmdLine .stop where
  line := "stop rec".toList
  name := "stop".toList
  args := [paramRec]
  cmdNum := 16
  tokens := by decide +kernel
  code := by decide
  func := rfl

/-- `start rec` with a new socket and no other program's port. -/
def startAlone (i : Nat) : RecCommand := .startRec startRecLine rfl ⟨i + 3, fun _ => false⟩ 100

/-- The receive mode started and stopped so many times. -/
def restarts (n : Nat) : List RecCommand :=
  (List.range n).flatMap fun i => [startAlone i, .stopRec stopRecLine rfl]

/-- The sockets of twenty receive threads leave no port for the next one. -/
theorem restarts_untruthful :
    ¬ Throughout (fun c s => s.step startHost c) Truthful (restarts 20 ++ [startAlone 20])
    (initial fun _ => none) := by
  have found : ((runAll (fun c s => s.step startHost c) (restarts 20 ++ [startAlone 20])
      (initial fun _ => none)).toOption.map fun s =>
        (s.returned, decide (⟨s.ports.syslogSockFd, some s.ports.gSyslogPort⟩ ∈ s.ports.sockets))) =
      some (some ok, false) := by decide +kernel
  intro through
  obtain ⟨s, t, hrun, truthful⟩ := through.last
  rw [hrun] at found
  obtain ⟨returned, unbound⟩ := Prod.mk.inj (Option.some.inj found)
  exact of_decide_eq_false unbound ((truthful ok returned).bound rfl).2

end Session

end AutoTest
