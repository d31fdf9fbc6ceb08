import AutoTest.Footprint
import AutoTest.Script
import AutoTest.World

/-!
# The process and its threads

The main thread and the script threads process lines, and the handler of a
line is one step. The threads that `start` and `runScript` create take a step
at any time in between, and end where a handler joins them.

* `Process.step`: a line, one operation of a thread, or a log text.
* `Func.run_calm`: all handlers but four leave threads and script tables alone.
-/

namespace AutoTest

open CString Strtok Program Cmd

/-! ## Threads -/

/-- Where `cmd_send` is in its loop, and what it has read since `msgrcv`. -/
inductive Sender where
  | signal
  | msgrcv
  | lock (m : MsgQ)
  | getSocket (m : MsgQ)
  | getClientSockAddr (m : MsgQ) (socketFd : Int)
  | getClientFlag (m : MsgQ) (socketFd : Int) (clientAddr : SockAddr)
  | unlock (m : MsgQ) (socketFd : Int) (clientAddr : SockAddr) (useFlag : Int)
  | sendto (m : MsgQ) (socketFd : Int) (clientAddr : SockAddr)
  deriving DecidableEq, Repr

/-- How a message left the thread that received it. -/
inductive Fate where
  /-- passed to `sendto` -/
  | handed
  /-- its client was `UNUSED` at the look-up -/
  | discarded
  /-- the thread was ended while it held the message -/
  | lost
  deriving DecidableEq, Repr

namespace Sender

def held : Sender → List MsgQ
  | .signal => []
  | .msgrcv => []
  | .lock m => [m]
  | .getSocket m => [m]
  | .getClientSockAddr m _ => [m]
  | .getClientFlag m _ _ => [m]
  | .unlock m _ _ _ => [m]
  | .sendto m _ _ => [m]

/-- It asks for `gMutex`. -/
def waits : Sender → Bool
  | .lock _ => true
  | _ => false

/-- `msgrcv` does not wait, and finds no queue when `msgget` has failed. A step
at `lock` is that of a thread that gets the mutex: who holds it, and who is
kept waiting, is followed in `Locking`. -/
def step (s : Shared) : Sender → Except Fault (Sender × Shared × List (MsgQ × Fate))
  | .signal => .ok (.msgrcv, s, [])
  | .msgrcv =>
    if s.gMsgid = failed then .ok (.msgrcv, s, [])
    else
      match s.queue with
      | [] => .ok (.msgrcv, s, [])
      | m :: queue => .ok (.lock m, { s with queue := queue }, [])
  | .lock m => .ok (.getSocket m, s, [])
  | .getSocket m => .ok (.getClientSockAddr m (s.net.getSocket m.clientNum), s, [])
  | .getClientSockAddr m socketFd =>
    match s.net.getClientSockAddr m.clientNum with
    | .ok clientAddr => .ok (.getClientFlag m socketFd clientAddr, s, [])
    | .error f => .error f
  | .getClientFlag m socketFd clientAddr =>
    .ok (.unlock m socketFd clientAddr (s.net.getClientFlag m.clientNum), s, [])
  | .unlock m socketFd clientAddr useFlag =>
    if useFlag = unused then .ok (.msgrcv, s, [(m, .discarded)])
    else .ok (.sendto m socketFd clientAddr, s, [])
  | .sendto m _ _ => .ok (.msgrcv, s, [(m, .handed)])

end Sender

/-- A script thread: the slot and the file its `runScript` line gave, and what
is left of it. -/
structure Worker where
  slot : Int
  file : Text
  /-- it has fetched the name of its file -/
  named : Bool
  /-- it has cleared the handle of the slot -/
  cleared : Bool
  rest : Cmd Unit

inductive Thread where
  | send (stage : Sender)
  | receive
  | script (w : Worker)

def Worker.created (line : Text) : Worker where
  slot := atoi ((words cSpace line).getD 1 [])
  file := (words cSpace line).getD 2 []
  named := false
  cleared := false
  rest := scriptCmdProcess

/-- The thread that the handler of a line creates. -/
def Thread.created (line : Text) : Routine → Thread
  | .cmdSend => .send .signal
  | .retReceive => .receive
  | .scriptCmdProcess => .script (.created line)

def Op.clears (slot : Int) : Op → Bool
  | .setScriptThreadID n id => n = slot && id = 0
  | _ => false

def Op.fetches : Op → Bool
  | .getScriptName _ => true
  | _ => false

/-- A script thread after the operation `o`. -/
def Worker.moved (w : Worker) (o : Op) (rest : Cmd Unit) : Worker where
  slot := w.slot
  file := w.file
  named := w.named || o.fetches
  cleared := w.cleared || o.clears w.slot
  rest := rest

/-- The number that a line gives as its first argument. -/
def argNumber (line : Text) : Option Int := do
  let argv ← lineTokens line
  let token ← argv[1]?
  return atoi token

/-- The line whose tokens are in the buffer, if it is not a list of keys. -/
def Op.tokenised (last : Option Text) : Op → Option Text
  | .setParams line => some line
  | .getTokens _ _ => none
  | _ => last

/-! ## Steps -/

structure Process where
  world : World
  thread : Tid → Option Thread
  /-- the messages queued since the start, and those in the queue by then -/
  accepted : List MsgQ
  /-- the messages that have left their receiver -/
  disposed : List (MsgQ × Fate)
  /-- the line that was tokenised last, none if a list of keys was -/
  last : Option Text

/-- Why an operation does not answer. -/
inductive Halt where
  | fault (f : Fault)
  /-- the thread that performs it has ended -/
  | ended (s : Process)

inductive ProcessEvent where
  /-- a thread, `none` being the main one, processes a line -/
  | line (self : Option Tid) (line : Text)
  | advance (id : Tid)
  /-- the receive thread is given a text -/
  | log (id : Tid) (text : Text)

namespace Process

/-- Without a thread. -/
def idle (world : World) : Process := ⟨world, fun _ => none, world.shared.queue, [], none⟩

def setShared (shared : Shared) (s : Process) : Process :=
  { s with world := { s.world with shared := shared } }

def setThread (id : Tid) (t : Option Thread) (s : Process) : Process :=
  { s with thread := Function.update s.thread id t }

def heldBy (id : Tid) (s : Process) : List MsgQ :=
  match s.thread id with
  | some (.send stage) => stage.held
  | _ => []

def endThread (id : Tid) (s : Process) : Process :=
  { s.setThread id none with disposed := s.disposed ++ (s.heldBy id).map fun m => (m, .lost) }

/-- A handler at work for the thread `self`, as one step: no other thread takes
one before it ends, not even in its joins (`Roster.step` is a step for each
operation). The lines it passes on to `cmd_proc` are steps of their own. The
signal of `pthread_kill` arrives by the time of the `pthread_join`, and at once
when a thread stops itself. -/
def operate (host : Host) (self : Option Tid) (line : Text) : Interp cmdSig Halt Process
  | .pthreadCreate routine, s =>
    match s.world.shared.pthreadCreate host with
    | (none, shared) => .ok (none, s.setShared shared)
    | (some id, shared) =>
      .ok (some id, (s.setShared shared).setThread id (some (.created line routine)))
  | .pthreadKill id, s =>
    if s.world.shared.joinable id then
      if self = some id then .error (.ended (s.endThread id)) else .ok ((), s)
    else .error (.fault .thread)
  | .pthreadJoin id, s =>
    match s.world.shared.pthreadJoin id with
    | .ok shared => .ok ((), (s.setShared shared).endThread id)
    | .error f => .error (.fault f)
  | .msgsnd m, s =>
    match interp host (fun _ => .ok) (.msgsnd m) s.world with
    | .ok (r, w) =>
      let accepted := if r = failed then s.accepted else s.accepted ++ [m]
      .ok (r, { s with world := w, accepted := accepted })
    | .error f => .error (.fault f)
  | o, s =>
    match interp host (fun _ => .ok) o s.world with
    | .ok (r, w) => .ok (r, { s with world := w, last := o.tokenised s.last })
    | .error f => .error (.fault f)

/-- The state a function leaves, at its end or that of the thread it runs in. -/
def settle : Except Halt (Unit × Process) → Except Fault Process
  | .ok (_, s) => .ok s
  | .error (.ended s) => .ok s
  | .error (.fault f) => .error f

def handle (host : Host) (self : Option Tid) (line : Text) (s : Process) : Except Fault Process :=
  settle ((cmdProc line).run (operate host self line) s)

def advanceScript (host : Host) (id : Tid) (w : Worker) (s : Process) : Except Fault Process :=
  match w.rest with
  | .pure _ => .error .invalid
  | .op o k =>
    match o, k with
    | .pthreadExit, _ => .ok (s.endThread id)
    | .call line, k => (s.setThread id (some (.script { w with rest := k () }))).handle
      host (some id) line
    | o, k =>
      match interp host (fun _ => .ok) o s.world with
      | .ok (r, world) =>
        .ok ({ s with world := world }.setThread id (some (.script (w.moved o (k r)))))
      | .error f => .error f

def advanceSend (id : Tid) (stage : Sender) (s : Process) : Except Fault Process :=
  match stage.step s.world.shared with
  | .ok (stage, shared, gone) =>
    .ok { (s.setShared shared).setThread id (some (.send stage)) with disposed := s.disposed ++ gone }
  | .error f => .error f

/-- A line comes from the main thread or from a script thread. -/
def mayProcess (self : Option Tid) (s : Process) : Bool :=
  match self with
  | none => true
  | some id =>
    match s.thread id with
    | some (.script _) => true
    | _ => false

def step (host : Host) : ProcessEvent → Process → Except Fault Process
  | .line self line, s => if s.mayProcess self then s.handle host self line else .error .invalid
  | .advance id, s =>
    match s.thread id with
    | some (.send stage) => s.advanceSend id stage
    | some (.script w) => s.advanceScript host id w
    | _ => .error .invalid
  | .log id text, s =>
    match s.thread id with
    | some .receive => settle ((syslogProcess text).run (operate host (some id) []) s)
    | _ => .error .invalid

end Process

/-- A failure is no matter, and a thread that ends itself leaves `I`. -/
def Halt.Safe (I : Process → Prop) : Halt → Prop
  | .fault _ => True
  | .ended s => I s

theorem Process.settle_leads {host : Host} {self : Option Tid} {line : Text} {I : Process → Prop}
    {p : Cmd Unit} {s t : Process}
    (leads : p.Leads (operate host self line) (Halt.Safe I) (fun _ => I) s)
    (h : settle (p.run (operate host self line) s) = .ok t) : I t := by
  cases hrun : p.run (operate host self line) s with
  | ok r =>
    obtain rfl : r.2 = t := by simpa [hrun, settle] using h
    exact leads.ok hrun
  | error e =>
    cases e with
    | fault f => simp [hrun, settle] at h
    | ended u =>
      obtain rfl : u = t := by simpa [hrun, settle] using h
      exact leads.error hrun

/-! ## Handlers that leave the threads alone -/

section Calm

variable {α : Type} (cmdNum : Nat)

abbrev Cmd.Calm (p : Cmd α) : Prop := p.Only Op.Calm

theorem Cmd.Plain.calm {p : Cmd α} (h : p.Plain) : p.Calm := h.mono fun _ ho => ho.2

theorem say_calm (t : String) : (say t).Calm := (say_plain t).calm

theorem wrongParameter_calm : (wrongParameter cmdNum).Calm := (wrongParameter_plain cmdNum).calm

theorem syslogProcess_calm (text : Text) : (syslogProcess text).Calm :=
  (syslogProcess_touches text).calm (by decide)

/-- The commands that create threads or end them. -/
def Func.threads : Func → Bool
  | .start => true
  | .stop => true
  | .quit => true
  | .runScript => true
  | _ => false

theorem Func.run_calm {f : Func} (h : f.threads = false) : (f.run cmdNum).Calm := by
  apply (f.run_touches cmdNum).calm
  cases f <;> first | decide | cases h

end Calm

/-! ## What an operation can write -/

/-- Parts of the state that few operations write. -/
inductive Part where
  | sendHandle
  | receiveHandle
  | scriptHandles
  | scriptNames
  | joinable
  | queue
  | calls
  deriving DecidableEq

def Part.Same (s s' : Shared) : Part → Prop
  | .sendHandle => s'.thrCmdSendId = s.thrCmdSendId
  | .receiveHandle => s'.thrRetReceiveId = s.thrRetReceiveId
  | .scriptHandles => s'.scripts.thrScriptId = s.scripts.thrScriptId
  | .scriptNames => s'.scripts.gScriptName = s.scripts.gScriptName
  | .joinable => s'.joinable = s.joinable
  | .queue => s'.queue = s.queue
  | .calls => s'.gSuccessCall = s.gSuccessCall

def Op.writes : Op → List Part
  | .setSendThreadID _ => [.sendHandle]
  | .setRecThreadID _ => [.receiveHandle]
  | .setScriptThreadID _ _ => [.scriptHandles]
  | .setScriptName _ _ => [.scriptNames]
  | .gScriptParamInit => [.scriptNames]
  | .pthreadCreate _ => [.joinable]
  | .pthreadJoin _ => [.joinable]
  | .msgsnd _ => [.queue]
  | .setCountOfSuccessCall _ _ _ => [.calls]
  | _ => []

theorem Part.Same.refl (s : Shared) (p : Part) : p.Same s s := by
  cases p <;> rfl

theorem Shared.pthreadCreate_cases (host : Host) (s : Shared) :
    s.pthreadCreate host = (none, s.asked) ∨
      ∃ id, id ≠ 0 ∧ s.joinable id = false ∧ s.pthreadCreate host =
        (some id, { s.asked with joinable := Function.update s.joinable id true }) := by
  unfold pthreadCreate
  cases host.pthreadCreate s.calls with
  | none => exact .inl rfl
  | some id =>
    by_cases taken : id = 0 ∨ s.joinable id
    · exact .inl (if_pos taken)
    · obtain ⟨nonzero, fresh⟩ := not_or.mp taken
      exact .inr ⟨id, nonzero, by simpa using fresh, if_neg taken⟩

theorem Shared.pthreadJoin_ok {id : Tid} {s s' : Shared} (h : s.pthreadJoin id = .ok s') :
    s.joinable id = true ∧ s' = { s with joinable := Function.update s.joinable id false } := by
  unfold pthreadJoin at h
  split at h
  · rename_i joinable
    exact ⟨joinable, (Except.ok.inj h).symm⟩
  · cases h

section Frame

variable {host : Host} {s s' : Shared} {p : Part} {α : Type}

theorem reading_ok {σ : Type} {s s' : σ} {x : Except Fault α} {r : α}
    (h : reading s x = .ok (r, s')) : x = .ok r ∧ s' = s := by
  cases x with
  | error f => simp [reading] at h
  | ok a =>
    obtain ⟨rfl, rfl⟩ : a = r ∧ s = s' := by simpa [reading] using h
    exact ⟨rfl, rfl⟩

theorem writing_ok {σ τ : Type} {put : τ → σ} {x : Except Fault τ} {r : Unit} {t : σ}
    (h : writing put x = .ok (r, t)) : ∃ a, x = .ok a ∧ t = put a := by
  cases x with
  | error f => simp [writing] at h
  | ok a => exact ⟨a, rfl, by simpa [writing] using h.symm⟩

theorem reading_error {α σ : Type} {s : σ} {x : Except Fault α} {e : Fault}
    (h : reading s x = .error e) : x = .error e := by
  cases x with
  | error f =>
    cases h
    rfl
  | ok a => cases h

theorem writing_error {σ τ : Type} {put : τ → σ} {x : Except Fault τ} {e : Fault}
    (h : writing put x = .error e) : x = .error e := by
  cases x with
  | error f =>
    cases h
    rfl
  | ok a => cases h

/-- A change to the scripts that keeps the handles and the names. -/
theorem scripts_frame {x : Except Fault Scripts} {r : Unit}
    (keeps : ∀ scripts, x = .ok scripts → s.scripts.Keeps scripts)
    (h : writing (fun scripts => { s with scripts := scripts }) x = .ok (r, s')) : p.Same s s' := by
  obtain ⟨scripts, hx, rfl⟩ := writing_ok h
  cases p with
  | scriptHandles => exact (keeps scripts hx).1
  | scriptNames => exact (keeps scripts hx).2
  | _ => rfl

theorem net_frame {x : Except Fault Net} {r : Unit}
    (h : writing (fun net => { s with net := net }) x = .ok (r, s')) : p.Same s s' := by
  obtain ⟨net, -, rfl⟩ := writing_ok h
  cases p <;> rfl

theorem answer_frame {t : Shared} {a r : α} (same : p.Same s t)
    (h : (Except.ok (a, t) : Except Fault (α × Shared)) = .ok (r, s')) : p.Same s s' := by
  obtain ⟨-, rfl⟩ : a = r ∧ t = s' := by simpa using h
  exact same

/-- An operation leaves the parts alone that it does not write. -/
theorem sharedStep_frame {o : Op} {r : o.Res} (h : p ∉ o.writes)
    (hstep : sharedStep host o s = .ok (r, s')) : p.Same s s' := by
  have net (net : Net) : p.Same s { s with net := net } := by cases p <;> rfl
  have asked : p.Same s s.asked := by cases p <;> rfl
  cases o with
  | setParams | paramNum | param | getTokens | call | fault => cases hstep
  | lock | unlock | getClientFlag | getSendThreadID | getRecThreadID | pthreadExit | signal
  | getSysLogPortNum | fopen | fclose | sleep | usleep => exact answer_frame (.refl s p) hstep
  | openMsgFile | ftok | fopenNote | fwriteNote | getSysTime | rand | mallocTemp =>
    exact answer_frame asked hstep
  | getScriptThreadID | getCountOfSuccessCall | getCountOfScriptRun | getScriptName | scriptCmd =>
    obtain ⟨-, rfl⟩ := reading_ok hstep
    exact .refl s' p
  | setClientFlag | delClientSockAddr | networkConfig | changeClientAddr =>
    exact answer_frame (net _) hstep
  | setClientIpAddr | closeSocket => exact net_frame hstep
  | setCountOfScriptRun => exact scripts_frame (fun _ => Scripts.setCountOfScriptRun_keeps) hstep
  | copyScript => exact scripts_frame (fun _ => Scripts.copyScript_keeps) hstep
  | freeScript => exact scripts_frame (fun _ => Scripts.freeScript_keeps) hstep
  | print | printConfFileName | setConfFileName | msgget =>
    cases hstep
    cases p <;> rfl
  | setScriptName =>
    obtain ⟨scripts, hset, rfl⟩ := writing_ok hstep
    cases p with
    | scriptHandles => exact Scripts.setScriptName_handles hset
    | scriptNames => exact absurd (by simp [Op.writes]) h
    | _ => rfl
  | setSendThreadID | setRecThreadID | gScriptParamInit =>
    cases hstep
    cases p <;> first | rfl | exact absurd (by simp [Op.writes]) h
  | msgsnd m =>
    simp only [sharedStep] at hstep
    split at hstep
    · cases hstep
      cases p <;> first | rfl | exact absurd (by simp [Op.writes]) h
    · exact answer_frame asked hstep
  | getClientIpAddr n =>
    simp only [sharedStep] at hstep
    split at hstep
    · exact answer_frame (.refl s p) hstep
    · cases hstep
  | setScriptThreadID =>
    obtain ⟨scripts, hset, rfl⟩ := writing_ok hstep
    cases p with
    | scriptHandles => exact absurd (by simp [Op.writes]) h
    | scriptNames => exact Scripts.setScriptThreadID_names hset
    | _ => rfl
  | pthreadCreate =>
    have hcreate : s.pthreadCreate host = (r, s') := Except.ok.inj hstep
    rcases s.pthreadCreate_cases host with refused | ⟨id, -, -, created⟩
    · cases refused.symm.trans hcreate
      exact asked
    · cases created.symm.trans hcreate
      cases p <;> first | rfl | exact absurd (by simp [Op.writes]) h
  | pthreadJoin =>
    obtain ⟨joined, hjoin, rfl⟩ := writing_ok hstep
    obtain ⟨-, rfl⟩ := Shared.pthreadJoin_ok hjoin
    cases p <;> first | rfl | exact absurd (by simp [Op.writes]) h
  | pthreadKill => 
    simp only [sharedStep] at hstep
    split at hstep
    · exact answer_frame (.refl s p) hstep
    · cases hstep
  | setCountOfSuccessCall =>
    obtain ⟨counted, hcount, rfl⟩ := writing_ok hstep
    unfold Shared.setCountOfSuccessCall at hcount
    split at hcount
    · cases hcount
      exact .refl s p
    · split at hcount
      · cases hcount
      · split at hcount
        · cases hcount
          cases p <;> first | rfl | exact absurd (by simp [Op.writes]) h
        · cases hcount
  | mallocScript =>
    simp only [sharedStep] at hstep
    split at hstep <;> split at hstep
    · rename_i scripts hx
      cases hstep
      cases p with
      | scriptHandles => exact (Scripts.mallocScript_keeps hx).1
      | scriptNames => exact (Scripts.mallocScript_keeps hx).2
      | _ => rfl
    · cases hstep
    · rename_i scripts hx
      cases hstep
      cases p with
      | scriptHandles => exact (Scripts.freeScript_keeps hx).1
      | scriptNames => exact (Scripts.freeScript_keeps hx).2
      | _ => rfl
    · cases hstep

/-- An operation on the tokens leaves the shared state alone. -/
theorem interp_shared {o : Op} {r : o.Res} {w v : World}
    (hstep : interp host (fun _ => .ok) o w = .ok (r, v)) :
    v.shared = w.shared ∨ sharedStep host o w.shared = .ok (r, v.shared) := by
  cases o with
  | setParams line =>
    obtain ⟨params, -, rfl⟩ := writing_ok hstep
    exact .inl rfl
  | paramNum | call =>
    cases hstep
    exact .inl rfl
  | param i =>
    obtain ⟨-, rfl⟩ := reading_ok hstep
    exact .inl rfl
  | getTokens inStr delim =>
    simp only [interp] at hstep
    split at hstep <;> cases hstep
    exact .inl rfl
  | _ =>
    simp only [interp] at hstep
    split at hstep
    · rename_i hshared
      cases hstep
      exact .inr hshared
    · cases hstep

theorem interp_frame {o : Op} {r : o.Res} {w v : World} (h : p ∉ o.writes)
    (hstep : interp host (fun _ => .ok) o w = .ok (r, v)) : p.Same w.shared v.shared := by
  rcases interp_shared hstep with same | hshared
  · rw [same]
    exact .refl w.shared p
  · exact sharedStep_frame h hshared

end Frame

section Tokenised

variable {host : Host} {last : Option Text}

/-- The tokens of the last line are in the array. -/
def Params.Holds (p : Params) (last : Option Text) : Prop :=
  ∀ line, last = some line → ∃ argv old, lineTokens line = some argv ∧ Loaded argv old p

theorem Params.Holds.number {p : Params} (holds : p.Holds last) {n : Int}
    (number : last.bind argNumber = some n) :
    ∃ t, p.param 1 = .ok t ∧ atoi t = n := by
  simp only [argNumber, Option.bind_eq_bind, Option.bind_eq_some_iff, Option.pure_def,
    Option.some.injEq] at number
  obtain ⟨line, own, argv, tokens, t, second, number⟩ := number
  obtain ⟨argv', old, tokens', loaded⟩ := holds line own
  obtain rfl := Option.some.inj (tokens.symm.trans tokens')
  obtain ⟨inside, rfl⟩ := List.getElem?_eq_some_iff.mp second
  exact ⟨_, loaded.own 1 inside, number⟩

theorem Params.load_loaded {line : Text} {p q : Params} (h : p.load line = .ok q) :
    ∃ argv, lineTokens line = some argv ∧ Loaded argv p q := by
  cases tokens : lineTokens line with
  | none =>
    have formatted : CString.snprintf maxScContent line = none := by simpa [lineTokens] using tokens
    simp [Params.load, formatted] at h
  | some argv =>
    obtain ⟨q', hload, loaded⟩ := Params.load_own tokens p
    obtain rfl := Except.ok.inj (h.symm.trans hload)
    exact ⟨argv, rfl, loaded⟩

theorem Params.load_holds {line : Text} {p q : Params} (h : p.load line = .ok q) :
    q.Holds (some line) := by
  intro line' last
  obtain rfl := Option.some.inj last
  obtain ⟨argv, tokens, loaded⟩ := Params.load_loaded h
  exact ⟨argv, p, tokens, loaded⟩

/-- An operation keeps the last line known. -/
theorem interp_holds {o : Op} {r : o.Res} {w v : World} (holds : w.params.Holds last)
    (h : interp host (fun _ => .ok) o w = .ok (r, v)) : v.params.Holds (o.tokenised last) := by
  cases o with
  | setParams line =>
    obtain ⟨p, hload, rfl⟩ := writing_ok h
    exact Params.load_holds hload
  | getTokens inStr delim =>
    intro line last
    cases last
  | paramNum | call =>
    cases h
    exact holds
  | param i =>
    obtain ⟨-, rfl⟩ := reading_ok h
    exact holds
  | _ =>
    simp only [interp] at h
    split at h
    · cases h
      exact holds
    · cases h

end Tokenised

/-- The sending thread changes nothing but the queue, from which a message goes
through its hands and then to `sendto` or nowhere. -/
theorem Sender.step_moves {stage next : Sender} {s s' : Shared} {gone : List (MsgQ × Fate)}
    (h : stage.step s = .ok (next, s', gone)) :
    s' = { s with queue := s'.queue } ∧
      stage.held ++ s.queue = gone.map Prod.fst ++ (next.held ++ s'.queue) := by
  cases stage with
  | msgrcv =>
    simp only [step] at h
    split at h
    · cases h
      exact ⟨rfl, rfl⟩
    · cases hqueue : s.queue with
      | nil =>
        simp only [hqueue, Except.ok.injEq, Prod.mk.injEq] at h
        obtain ⟨rfl, rfl, rfl⟩ := h
        exact ⟨rfl, by simp [hqueue]⟩
      | cons m queue =>
        simp only [hqueue, Except.ok.injEq, Prod.mk.injEq] at h
        obtain ⟨rfl, rfl, rfl⟩ := h
        exact ⟨rfl, by simp [held]⟩
  | getClientSockAddr m socketFd =>
    simp only [step] at h
    split at h
    · cases h
      exact ⟨rfl, rfl⟩
    · cases h
  | unlock m socketFd clientAddr useFlag =>
    simp only [step] at h
    split at h
    · cases h
      exact ⟨rfl, rfl⟩
    · cases h
      exact ⟨rfl, rfl⟩
  | _ =>
    cases h
    exact ⟨rfl, rfl⟩

/-! ## What an operation does to the threads -/

/-- Starting or ending a thread, or queueing a message. -/
def Op.moves : Op → Bool
  | .pthreadCreate _ => true
  | .pthreadKill _ => true
  | .pthreadJoin _ => true
  | .msgsnd _ => true
  | _ => false

namespace Process

variable {host : Host} {self : Option Tid} {line : Text} {s t : Process}

theorem operate_still {o : Op} (still : o.moves = false) {r : o.Res}
    (h : operate host self line o s = .ok (r, t)) :
    ∃ w, interp host (fun _ => .ok) o s.world = .ok (r, w) ∧
      t = { s with world := w, last := o.tokenised s.last } := by
  cases hstep : interp host (fun _ => .ok) o s.world with
  | error f =>
    have stuck : operate host self line o s = .error (.fault f) := by
      cases o <;> simp only [Op.moves, Bool.true_eq_false] at still <;> simp only [operate, hstep]
    cases stuck.symm.trans h
  | ok answer =>
    have answered : operate host self line o s =
        .ok (answer.1, { s with world := answer.2, last := o.tokenised s.last }) := by
      cases o <;> simp only [Op.moves, Bool.true_eq_false] at still <;> simp only [operate, hstep]
    obtain ⟨rfl, rfl⟩ : answer.1 = r ∧
        { s with world := answer.2, last := o.tokenised s.last } = t := by
      simpa using answered.symm.trans h
    exact ⟨answer.2, rfl, rfl⟩

theorem operate_create {routine : Routine} {r : Option Tid}
    (h : operate host self line (.pthreadCreate routine) s = .ok (r, t)) :
    (r = none ∧ t = s.setShared s.world.shared.asked) ∨
      ∃ id, id ≠ 0 ∧ s.world.shared.joinable id = false ∧ r = some id ∧
        t = (s.setShared { s.world.shared.asked with
          joinable := Function.update s.world.shared.joinable id true }).setThread id
            (some (.created line routine)) := by
  simp only [operate] at h
  rcases s.world.shared.pthreadCreate_cases host with refused | ⟨id, nonzero, fresh, created⟩
  · simp only [refused, Except.ok.injEq, Prod.mk.injEq] at h
    exact .inl ⟨h.1.symm, h.2.symm⟩
  · simp only [created, Except.ok.injEq, Prod.mk.injEq] at h
    exact .inr ⟨id, nonzero, fresh, h.1.symm, h.2.symm⟩

theorem operate_kill {id : Tid} {r : Unit}
    (h : operate host self line (.pthreadKill id) s = .ok (r, t)) : t = s := by
  simp only [operate] at h
  split at h
  · split at h
    · cases h
    · cases h
      rfl
  · cases h

theorem operate_join {id : Tid} {r : Unit}
    (h : operate host self line (.pthreadJoin id) s = .ok (r, t)) :
    s.world.shared.joinable id = true ∧
      t = (s.setShared { s.world.shared with
        joinable := Function.update s.world.shared.joinable id false }).endThread id := by
  simp only [operate] at h
  cases hjoin : s.world.shared.pthreadJoin id with
  | error f => simp [hjoin] at h
  | ok shared =>
    obtain ⟨joinable, rfl⟩ := Shared.pthreadJoin_ok hjoin
    exact ⟨joinable, by simpa [hjoin] using h.symm⟩

theorem operate_msgsnd {m : MsgQ} {r : Int}
    (h : operate host self line (.msgsnd m) s = .ok (r, t)) :
    ∃ w, interp host (fun _ => .ok) (.msgsnd m) s.world = .ok (r, w) ∧
      t = { s with world := w, accepted := if r = failed then s.accepted else
        s.accepted ++ [m] } := by
  simp only [operate] at h
  cases hstep : interp host (fun _ => .ok) (.msgsnd m) s.world with
  | error f => simp [hstep] at h
  | ok rw' =>
    obtain ⟨rfl, rfl⟩ := Prod.mk.inj (Except.ok.inj (hstep ▸ h))
    exact ⟨rw'.2, rfl, rfl⟩

/-- Only a thread that stops itself ends before its handler. -/
theorem operate_ended {o : Op} (h : operate host self line o s = .error (.ended t)) :
    ∃ id, o = .pthreadKill id ∧ self = some id ∧ t = s.endThread id := by
  cases o with
  | pthreadKill id =>
    simp only [operate] at h
    split at h
    · split at h
      · rename_i same
        exact ⟨id, rfl, same, by simpa using h.symm⟩
      · cases h
    · cases h
  | _ =>
    simp only [operate] at h
    split at h <;> simp_all

/-! ### Reads -/

theorem operate_param {i : Nat} {r : Text} (h : operate host self line (.param i) s = .ok (r, t)) :
    s.world.params.param i = .ok r ∧ t = s := by
  obtain ⟨w, hread, rfl⟩ := operate_still rfl h
  simp only [interp] at hread
  cases hparam : s.world.params.param i with
  | error f => simp [hparam, reading] at hread
  | ok token =>
    obtain ⟨rfl, rfl⟩ : token = r ∧ s.world = w := by simpa [hparam, reading] using hread
    exact ⟨rfl, rfl⟩

theorem operate_paramNum {r : Int} (h : operate host self line .paramNum s = .ok (r, t)) :
    r = s.world.params.gParamNum ∧ t = s := by
  cases h
  exact ⟨rfl, rfl⟩

theorem operate_getSendThreadID {r : Tid}
    (h : operate host self line .getSendThreadID s = .ok (r, t)) :
    r = s.world.shared.thrCmdSendId ∧ t = s := by
  cases h
  exact ⟨rfl, rfl⟩

theorem operate_getRecThreadID {r : Tid}
    (h : operate host self line .getRecThreadID s = .ok (r, t)) :
    r = s.world.shared.thrRetReceiveId ∧ t = s := by
  cases h
  exact ⟨rfl, rfl⟩

theorem operate_getScriptThreadID {n : Int} {r : Tid}
    (h : operate host self line (.getScriptThreadID n) s = .ok (r, t)) :
    ∃ slot : Slot, n = slot ∧ r = s.world.shared.scripts.thrScriptId slot ∧ t = s := by
  obtain ⟨w, hread, rfl⟩ := operate_still rfl h
  simp only [interp] at hread
  split at hread
  · rename_i hshared
    cases hread
    obtain ⟨hid, rfl⟩ := reading_ok hshared
    obtain ⟨slot, hslot, rfl⟩ := Scripts.slotwise_ok hid
    exact ⟨slot, hslot, rfl, rfl⟩
  · cases hread

theorem operate_setScriptThreadID {slot : Slot} {id : Tid} {r : Unit}
    (h : operate host self line (.setScriptThreadID slot id) s = .ok (r, t)) :
    t = s.setShared { s.world.shared with scripts := { s.world.shared.scripts with
      thrScriptId := Function.update s.world.shared.scripts.thrScriptId slot id } } := by
  obtain ⟨w, hset, rfl⟩ := operate_still rfl h
  simp only [interp, sharedStep, Scripts.setScriptThreadID_slot, writing, Except.ok.injEq,
    Prod.mk.injEq] at hset
  exact congrArg (fun w => { s with world := w }) hset.2.symm

/-- The tokens of the line are loaded, the rest is as it was. -/
theorem operate_setParams {r : Unit} {cmdLine : Text}
    (h : operate host self line (.setParams cmdLine) s = .ok (r, t)) :
    ∃ argv p, lineTokens cmdLine = some argv ∧ Params.Loaded argv s.world.params p ∧
      t = { s with world := { s.world with params := p }, last := some cmdLine } := by
  obtain ⟨w, hset, rfl⟩ := operate_still rfl h
  simp only [interp] at hset
  obtain ⟨p, hload, rfl⟩ := writing_ok hset
  obtain ⟨argv, tokens, loaded⟩ := Params.load_loaded hload
  exact ⟨argv, p, tokens, loaded, rfl⟩

end Process

end AutoTest
