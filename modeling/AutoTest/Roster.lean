import AutoTest.HandOver
import AutoTest.History
import AutoTest.ScriptTops

/-!
# Threads, one operation at a time

Every thread is in some lines, the innermost first, or follows the function it
was created for. An event lets one thread perform its next operation, so all
others can run before each creation, join and store of a handler. The address
that `add` and `changeIp` use is what their pointer into the buffer of
`getTokens` finds then. No thread waits for the mutex here, and no run ends with
a console line that begins with `quit`: whatever the process does is among the
runs.

* `Roster.step`: an operation, or something from outside that a thread meets.
-/

namespace AutoTest

open CString Strtok Program Cmd

/-- Where `gCmdParam[2]` pointed when a handler read it. -/
structure Pointer where
  offset : Nat
  /-- `network_config` has accepted the address there, which is yet to be copied -/
  accepted : Bool

/-- A line in the hands of a thread. -/
inductive Call where
  /-- its tokens are stored, and the name among them has not been read yet -/
  | entered (line : Text)
  /-- the name that was read has chosen the handler, of which `rest` is left -/
  | handler (line name : Text) (ipAddr : Option Pointer) (rest : Cmd Unit)

/-- The pointer of a handler after an operation. -/
def Pointer.after (p : Params) (ipAddr : Option Pointer) : (o : Op) → o.Res → Option Pointer
  | .param i, _ => if i = 2 then (p.gCmdParam 2).map fun offset => ⟨offset, false⟩ else ipAddr
  | .networkConfig _ _, stat => ipAddr.map fun a => { a with accepted := stat ≠ .failed }
  | .changeClientAddr _ _, stat => ipAddr.map fun a => { a with accepted := stat ≠ .failed }
  | .setClientIpAddr _ _, _ => ipAddr.map fun a => { a with accepted := false }
  | _, _ => ipAddr

/-- Where `ret_receive` is. -/
inductive Receiver where
  | signal
  | serverInit
  | recvfrom
  /-- what is left of `syslogProcess` -/
  | process (rest : Cmd Unit)

inductive Activity where
  | send (stage : Sender)
  | receive (stage : Receiver)
  | script (w : Worker)

def Activity.created (line : Text) : Routine → Activity
  | .cmdSend => .send .signal
  | .retReceive => .receive .signal
  | .scriptCmdProcess => .script (.created line)

structure Roster where
  world : World
  activity : Tid → Option Activity
  /-- `SIGQUIT` is on its way to the thread -/
  killed : Tid → Bool
  /-- `sig_handler` is installed -/
  catches : Bool
  /-- the lines of a thread, `none` being the main one -/
  calls : Option Tid → List Call
  /-- the line that was tokenised last, none if a list of keys was -/
  last : Option Text

inductive RosterEvent where
  /-- the main thread, which is in no line, is given one -/
  | take (line : Text)
  /-- a thread performs its next operation -/
  | step (self : Option Tid)
  /-- `SIGQUIT` reaches a thread -/
  | quit (id : Tid)
  /-- `syslogServerInit` succeeds, and may have bound its socket to a port -/
  | serve (id : Tid) (port : Option Int)
  /-- `syslogServerInit` fails, and its thread ends -/
  | fail (id : Tid)
  /-- a log text has been received -/
  | log (id : Tid) (text : Text)

/-! ## What comes next -/

def Cmd.next : Cmd Unit → Option Op
  | .pure _ => none
  | .op o _ => some o

/-- What is left of the handler of a line. -/
def Call.rest : Call → Option (Cmd Unit)
  | .entered _ => none
  | .handler _ _ _ rest => some rest

def Call.next (c : Call) : Option Op := c.rest.bind Cmd.next

/-- What is left of a script thread, or of `syslogProcess`. -/
def Activity.rest : Activity → Option (Cmd Unit)
  | .script w => some w.rest
  | .receive (.process rest) => some rest
  | _ => none

/-- What is left of the innermost handler of a thread, or of the thread itself. -/
def Roster.rest (s : Roster) (self : Option Tid) : Option (Cmd Unit) :=
  match s.calls self, self with
  | c :: _, _ => c.rest
  | [], none => none
  | [], some id => (s.activity id).bind Activity.rest

theorem Roster.rest_calls {s : Roster} {self : Option Tid} {c : Call} {callers : List Call}
    (stack : s.calls self = c :: callers) : s.rest self = c.rest := by
  simp only [Roster.rest, stack]

theorem Roster.rest_none {s : Roster} (stack : s.calls none = []) : s.rest none = none := by
  simp only [Roster.rest, stack]

theorem Roster.rest_some {s : Roster} {id : Tid} (stack : s.calls (some id) = []) :
    s.rest (some id) = (s.activity id).bind Activity.rest := by
  simp only [Roster.rest, stack]

/-- The operation that a thread performs next. -/
def Roster.next (s : Roster) (self : Option Tid) : Option Op := (s.rest self).bind Cmd.next

/-! ## Steps -/

namespace Roster

def idle (world : World) : Roster := ⟨world, fun _ => none, fun _ => false, false, fun _ => [], none⟩

def setShared (shared : Shared) (s : Roster) : Roster :=
  { s with world := { s.world with shared := shared } }

def setActivity (id : Tid) (a : Activity) (s : Roster) : Roster :=
  { s with activity := Function.update s.activity id (some a) }

def setCalls (self : Option Tid) (calls : List Call) (s : Roster) : Roster :=
  { s with calls := Function.update s.calls self calls }

def endThread (id : Tid) (s : Roster) : Roster where
  world := s.world
  activity := Function.update s.activity id none
  killed := Function.update s.killed id false
  catches := s.catches
  calls := Function.update s.calls (some id) []
  last := s.last

/-- A signal to a thread that has ended and is not joined yet is lost. -/
def sendSignal (id : Tid) (s : Roster) : Roster :=
  if (s.activity id).isSome then { s with killed := Function.update s.killed id true } else s

/-- The address that an operation is given: what the pointer finds, if there is one. -/
def address (s : Roster) (ipAddr : Option Pointer) (t : Text) : Text :=
  ipAddr.elim t fun a => stringAt s.world.params.tmp a.offset

def perform (host : Host) (o : Op) (s : Roster) : Except Fault (o.Res × Roster) :=
  match interp host (fun _ => .ok) o s.world with
  | .ok (r, w) => .ok (r, { s with world := w, last := o.tokenised s.last })
  | .error f => .error f

/-- One operation of a line. A join waits for the end of the thread. -/
def operate (host : Host) (line : Text) (ipAddr : Option Pointer) : Interp cmdSig Fault Roster
  | .pthreadCreate routine, s =>
    match s.world.shared.pthreadCreate host with
    | (none, shared) => .ok (none, s.setShared shared)
    | (some id, shared) => .ok (some id, (s.setShared shared).setActivity id (.created line routine))
  | .pthreadKill id, s =>
    if s.world.shared.joinable id then .ok ((), s.sendSignal id) else .error .thread
  | .pthreadJoin id, s =>
    match s.world.shared.pthreadJoin id with
    | .ok shared => if (s.activity id).isNone then .ok ((), s.setShared shared) else .error .invalid
    | .error f => .error f
  | .signal, s => .ok ((), { s with catches := true })
  | .networkConfig n t, s => s.perform host (.networkConfig n (s.address ipAddr t))
  | .changeClientAddr n t, s => s.perform host (.changeClientAddr n (s.address ipAddr t))
  | .setClientIpAddr n t, s => s.perform host (.setClientIpAddr n (s.address ipAddr t))
  | o, s => s.perform host o

/-- `cmd_proc` up to the read of the name. -/
def enter (self : Option Tid) (line : Text) (s : Roster) : Except Fault Roster :=
  match s.world.params.load line with
  | .ok p =>
    .ok ({ s with world := { s.world with params := p }, last := some line }.setCalls self
      (.entered line :: s.calls self))
  | .error f => .error f

/-- The next operation in the innermost line of a thread. -/
def advanceCall (host : Host) (self : Option Tid) (callers : List Call) (s : Roster) :
    Call → Except Fault Roster
  | .entered line =>
    match s.world.params.param 0 with
    | .ok name => .ok (s.setCalls self (.handler line name none (dispatch name) :: callers))
    | .error f => .error f
  | .handler _ _ _ (.pure _) => .ok (s.setCalls self callers)
  | .handler line name ipAddr (.op o k) =>
    match o, k with
    | .call inner, k =>
      (s.setCalls self (.handler line name ipAddr (k ()) :: callers)).enter self inner
    | o, k =>
      match operate host line ipAddr o s with
      | .ok (r, t) =>
        .ok (t.setCalls self (.handler line name (Pointer.after s.world.params ipAddr o r)
          (k r) :: callers))
      | .error f => .error f

def advanceSend (id : Tid) (stage : Sender) (s : Roster) : Except Fault Roster :=
  match stage.step s.world.shared with
  | .ok (next, shared, _) =>
    .ok { (s.setShared shared).setActivity id (.send next) with catches := s.catches ||
      stage = .signal }
  | .error f => .error f

def advanceReceive (host : Host) (id : Tid) (s : Roster) : Receiver → Except Fault Roster
  | .signal => .ok ({ s with catches := true }.setActivity id (.receive .serverInit))
  | .serverInit => .error .invalid
  | .recvfrom => .error .invalid
  | .process (.pure _) => .ok (s.setActivity id (.receive .recvfrom))
  | .process (.op o k) =>
    match operate host [] none o s with
    | .ok (r, t) => .ok (t.setActivity id (.receive (.process (k r))))
    | .error f => .error f

def advanceScript (host : Host) (id : Tid) (w : Worker) (s : Roster) : Except Fault Roster :=
  match w.rest with
  | .pure _ => .error .invalid
  | .op o k =>
    match o, k with
    | .pthreadExit, _ => .ok (s.endThread id)
    | .call line, k => (s.setActivity id (.script { w with rest := k () })).enter (some id) line
    | o, k =>
      match operate host [] none o s with
      | .ok (r, t) => .ok (t.setActivity id (.script (w.moved o (k r))))
      | .error f => .error f

def step (host : Host) : RosterEvent → Roster → Except Fault Roster
  | .take line, s =>
    match s.calls none with
    | [] => s.enter none line
    | _ :: _ => .error .invalid
  | .step self, s =>
    match s.calls self, self with
    | call :: callers, self => s.advanceCall host self callers call
    | [], none => .error .invalid
    | [], some id =>
      match s.activity id with
      | some (.send stage) => s.advanceSend id stage
      | some (.receive stage) => s.advanceReceive host id stage
      | some (.script w) => s.advanceScript host id w
      | none => .error .invalid
  -- without `sig_handler` the signal ends the process
  | .quit id, s => if s.killed id && s.catches then .ok (s.endThread id) else .error .invalid
  | .serve id port, s =>
    match s.activity id with
    | some (.receive .serverInit) =>
      let shared := { s.world.shared with gSyslogPort := port.getD s.world.shared.gSyslogPort }
      .ok ((s.setShared shared).setActivity id (.receive .recvfrom))
    | _ => .error .invalid
  | .fail id, s =>
    match s.activity id with
    | some (.receive .serverInit) => .ok (s.endThread id)
    | _ => .error .invalid
  | .log id text, s =>
    match s.activity id with
    | some (.receive .recvfrom) => .ok (s.setActivity id (.receive (.process (syslogProcess text))))
    | _ => .error .invalid

end Roster

end AutoTest
