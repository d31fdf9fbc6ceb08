import AutoTest.Process

/-!
# The lock and the threads that end

Every operation of every thread is a step of its own here, those of the main
thread included. `pthread_kill` makes the signal pending, and it arrives at any
later step.

* `Op.mutex`: what an operation does to the lock from the view of its thread.
* `Func.run_balanced`: a handler releases the lock before it ends, and neither
  calls `cmd_proc` nor ends its thread in between.
* `lock_kept_iff`: an ended thread holds `gMutex` in no state of a run exactly
  when no signal arrives at the thread that holds it.
-/

namespace AutoTest

open CString Strtok Program Cmd

/-! ## Handlers and the lock -/

/-- The lock is taken when it is not held, released when it is, and not held
where a line is passed on or the thread ends. -/
def Op.mutex : Op → Bool → Option Bool
  | .lock, held => if held then none else some true
  | .unlock, held => if held then some false else none
  | .call _, held => if held then none else some false
  | .pthreadExit, held => if held then none else some false
  | _, held => some held

abbrev Cmd.Balanced {α : Type} (p : Cmd α) : Prop := p.Follows Op.mutex false false

theorem Op.mutex_of_group {o : Op} (h : o.group ≠ .lock) : o.mutex false = some false := by
  cases o with
  | lock | unlock => exact absurd rfl h
  | _ => rfl

theorem Cmd.Touches.balanced {α : Type} {p : Cmd α} {groups : List Group} (h : p.Touches groups)
    (free : .lock ∉ groups) : p.Balanced :=
  .of_only (Prog.Only.mono (fun _ listed => Op.mutex_of_group fun same => free (same ▸ listed)) h)

section Balanced

variable {α : Type} (cmdNum : Nat)

theorem print_balanced (t : Text) : (Cmd.print t).Balanced := ⟨false, rfl, fun _ => rfl⟩

theorem say_balanced (t : String) : (say t).Balanced := print_balanced _

theorem wrongParameter_balanced : (wrongParameter cmdNum).Balanced :=
  .bind (say_balanced _) fun _ => print_balanced _

theorem each_balanced {f : Nat → Cmd Unit} (hf : ∀ index, (f index).Balanced) (indices : List Nat) :
    (each indices f).Balanced := by
  induction indices with
  | nil => rfl
  | cons index indices ih => exact .bind (hf index) fun _ => ih

/-- The flag is read under the lock. -/
theorem flag_balanced {clientNum : Int} {f : Int → Cmd α} (hf : ∀ stat, (f stat).Balanced) :
    (do lock; let stat ← getClientFlag clientNum; unlock; f stat : Cmd α).Balanced :=
  .bind_op rfl fun _ => .bind_op rfl fun stat => .bind_op rfl fun _ => hf stat

theorem addClient_balanced : (addClient cmdNum).Balanced := by
  unfold addClient
  refine .bind_op rfl fun _ => .ite (fun _ => wrongParameter_balanced cmdNum) fun _ => ?_
  refine .bind_op rfl fun _ => .bind_op rfl fun _ => flag_balanced fun _ => ?_
  refine .ite (fun _ => say_balanced _) fun _ => .bind_op rfl fun _ => ?_
  refine .ite (fun _ => print_balanced _) fun _ => .bind_op rfl fun _ => ?_
  exact .bind_op rfl fun _ => .bind_op rfl fun _ => .bind_op rfl fun _ => say_balanced _

theorem delClient_balanced : (delClient cmdNum).Balanced := by
  unfold delClient
  refine .bind_op rfl fun _ => .bind_op rfl fun _ =>
    .ite (fun _ => wrongParameter_balanced cmdNum) fun _ => ?_
  refine flag_balanced fun _ => .ite (fun _ => print_balanced _) fun _ => .bind_op rfl fun _ => ?_
  refine .bind_op rfl fun _ => .bind_op rfl fun _ => .bind_op rfl fun _ => ?_
  exact .bind_op rfl fun _ => ⟨false, rfl, fun _ => rfl⟩

theorem changeClientIpAddr_balanced : (changeClientIpAddr cmdNum).Balanced := by
  unfold changeClientIpAddr
  refine .bind_op rfl fun _ => .ite (fun _ => wrongParameter_balanced cmdNum) fun _ => ?_
  refine .bind_op rfl fun _ => .bind_op rfl fun _ => flag_balanced fun _ => ?_
  refine .ite (fun _ => say_balanced _) fun _ => .bind_op rfl fun _ => ?_
  refine .ite (fun _ => say_balanced _) fun _ => .bind_op rfl fun _ => ?_
  exact .bind_op rfl fun _ => .bind_op rfl fun _ => say_balanced _

theorem showClient_balanced : (showClient cmdNum).Balanced := by
  have clients (index : Nat) : (showClientEntry index).Balanced := by
    refine .bind (print_balanced _) fun _ => flag_balanced fun _ =>
      .ite (fun _ => say_balanced _) fun _ => ?_
    exact .bind_op rfl fun _ => print_balanced _
  have scripts (index : Nat) : (showScriptEntry index).Balanced := by
    refine .bind (print_balanced _) fun _ => .bind_op rfl fun _ =>
      .ite (fun _ => say_balanced _) fun _ => ?_
    exact .bind_op rfl fun _ => print_balanced _
  have shown : (do
      printConfFileName
      say "client Parameter:\n"
      each (List.range 10) showClientEntry
      say "script Parameter:\n"
      each (List.range 10) showScriptEntry : Cmd Unit).Balanced := by
    generalize List.range 10 = entries
    refine .bind_op rfl fun _ => .bind (say_balanced _) fun _ =>
      .bind (each_balanced clients _) fun _ => ?_
    exact .bind (say_balanced _) fun _ => each_balanced scripts _
  unfold showClient
  refine .bind_op rfl fun _ => .ite (fun _ => ?_) fun _ => shown
  exact .bind (say_balanced _) fun _ => .bind (print_balanced _) fun _ => shown

theorem syslogProcess_balanced (log : Text) : (syslogProcess log).Balanced := by
  have count (type : Nat) (clientNum : Int) : (countCall type clientNum).Balanced :=
    .bind_op rfl fun _ => ⟨false, rfl, fun _ => rfl⟩
  unfold syslogProcess
  cases getLogMsgIssueId log with
  | none => rfl
  | some issueId =>
    dsimp only
    cases getLogClientNum log with
    | error f => exact ⟨false, rfl, fun r => r.elim⟩
    | ok clientNum =>
      refine .ite (fun _ => ?_) fun _ => rfl
      cases issueId with
      | suspend =>
        refine .bind_op rfl fun _ => .bind_op rfl fun _ => .bind_op rfl fun _ =>
          .bind_op rfl fun _ => ?_
        exact .bind_op rfl fun _ => ⟨false, rfl, fun _ => rfl⟩
      | talkBuild => exact count 0 clientNum
      | talkConference => exact count 1 clientNum

theorem Func.run_balanced (f : Func) (cmdNum : Nat) : (f.run cmdNum).Balanced := by
  cases f with
  | addClient => exact addClient_balanced cmdNum
  | delClient => exact delClient_balanced cmdNum
  | changeClientIpAddr => exact changeClientIpAddr_balanced cmdNum
  | showClient => exact showClient_balanced cmdNum
  | _ => exact (Func.run_touches _ cmdNum).balanced (by decide)

theorem cmdProc_balanced (line : Text) : (cmdProc line).Balanced := by
  refine .bind_op rfl fun _ => .bind_op rfl fun name => ?_
  unfold dispatch
  cases getCmdCode name with
  | none => exact say_balanced _
  | some cmdNum => exact (cmdEntry cmdNum).func.run_balanced cmdNum

theorem scriptCmdProcess_balanced : scriptCmdProcess.Balanced :=
  scriptCmdProcess_touches.balanced (by decide)

end Balanced

/-! ## Steps -/

/-- A thread, with what is left of the function it is in. -/
inductive Agent where
  | send (stage : Sender)
  | receive (rest : Cmd Unit)
  /-- the main thread, or one that runs a script -/
  | lines (rest : Cmd Unit)

/-- `ret_receive` installs its handler and waits for a text. -/
def Agent.created : Routine → Agent
  | .cmdSend => .send .signal
  | .retReceive => .receive Cmd.signal
  | .scriptCmdProcess => .lines scriptCmdProcess

structure Locking where
  world : World
  /-- the thread that holds the lock, `none` being the main one -/
  gMutex : Option (Option Tid)
  agent : Option Tid → Option Agent
  /-- the threads to which SIGQUIT was sent and has not arrived -/
  pending : Tid → Bool
  /-- whether `sig_handler` is installed, which is so for all threads at once -/
  handler : Bool

inductive LockEvent where
  /-- the main thread reads a line -/
  | line (line : Text)
  /-- the receive thread is given a text -/
  | log (id : Tid) (text : Text)
  | advance (self : Option Tid)
  /-- the signal arrives -/
  | deliver (id : Tid)

namespace Locking

/-- Only the main thread is there, and waits for a line. -/
def boot (world : World) : Locking where
  world := world
  gMutex := none
  agent := Function.update (fun _ => none) none (some (.lines (.pure ())))
  pending := fun _ => false
  handler := false

def setAgent (self : Option Tid) (agent : Option Agent) (s : Locking) : Locking :=
  { s with agent := Function.update s.agent self agent }

def setShared (shared : Shared) (s : Locking) : Locking :=
  { s with world := { s.world with shared := shared } }

def create (id : Tid) (routine : Routine) (shared : Shared) (s : Locking) : Locking :=
  { (s.setShared shared).setAgent (some id) (some (.created routine)) with
    pending := Function.update s.pending id false }

/-- One operation of `self`. `pthread_mutex_lock` waits for the lock to be
free, and `pthread_join` for the thread to end. -/
def operate (host : Host) (self : Option Tid) : (o : Op) → Locking → Except Fault (o.Res × Locking)
  | .lock, s => if s.gMutex = none then .ok ((), { s with gMutex := some self }) else .error .invalid
  | .unlock, s => .ok ((), { s with gMutex := none })
  | .signal, s => .ok ((), { s with handler := true })
  | .pthreadCreate routine, s =>
    match s.world.shared.pthreadCreate host with
    | (none, shared) => .ok (none, s.setShared shared)
    | (some id, shared) => .ok (some id, s.create id routine shared)
  | .pthreadKill id, s =>
    if s.world.shared.joinable id then .ok
      ((), { s with pending := Function.update s.pending id true })
    else .error .thread
  | .pthreadJoin id, s =>
    if (s.agent (some id)).isSome then .error .invalid
    else
      match s.world.shared.pthreadJoin id with
      | .ok shared => .ok ((), s.setShared shared)
      | .error f => .error f
  | o, s =>
    match interp host (fun _ => .ok) o s.world with
    | .ok (r, world) => .ok (r, { s with world := world })
    | .error f => .error f

/-- The next step of a function, the rest of which `agent` stands for. A line
that is passed to `cmd_proc` comes before that rest. -/
def advanceRest (host : Host) (self : Option Tid) (agent : Cmd Unit → Agent) (s : Locking) :
    Cmd Unit → Except Fault Locking
  | .pure _ => .error .invalid
  | .op o k =>
    match o, k with
    | .pthreadExit, _ => .ok (s.setAgent self none)
    | .call line, k => .ok (s.setAgent self (some (agent (cmdProc line >>= k))))
    | o, k =>
      match s.operate host self o with
      | .ok (r, s) => .ok (s.setAgent self (some (agent (k r))))
      | .error f => .error f

def advanceSend (self : Option Tid) (stage : Sender) (s : Locking) : Except Fault Locking :=
  match stage with
  | .signal => .ok ({ s with handler := true }.setAgent self (some (.send .msgrcv)))
  | .lock m =>
    if s.gMutex = none then .ok ({ s with gMutex := some self }.setAgent self
      (some (.send (.getSocket m))))
    else .error .invalid
  | stage =>
    match stage.step s.world.shared with
    | .ok (next, shared, _) =>
      let gMutex := match stage with
        | .unlock _ _ _ _ => none
        | _ => s.gMutex
      .ok ({ s.setShared shared with gMutex := gMutex }.setAgent self (some (.send next)))
    | .error f => .error f

/-- The signal is under way to a thread that has not ended. -/
def Arrives (id : Tid) (s : Locking) : Prop := s.pending id ∧ s.handler ∧ (s.agent (some id)).isSome

instance (id : Tid) (s : Locking) : Decidable (s.Arrives id) := inferInstanceAs (Decidable (_ ∧ _))

def step (host : Host) : LockEvent → Locking → Except Fault Locking
  | .line line, s =>
    match s.agent none with
    | some (.lines (.pure _)) => .ok (s.setAgent none (some (.lines (cmdProc line))))
    | _ => .error .invalid
  | .log id text, s =>
    match s.agent (some id) with
    | some (.receive (.pure _)) => .ok (s.setAgent (some id) (some (.receive (syslogProcess text))))
    | _ => .error .invalid
  | .advance self, s =>
    match s.agent self with
    | some (.send stage) => s.advanceSend self stage
    | some (.receive rest) => s.advanceRest host self .receive rest
    | some (.lines rest) => s.advanceRest host self .lines rest
    | none => .error .invalid
  | .deliver id, s =>
    if s.Arrives id then
      .ok { s.setAgent (some id) none with pending := Function.update s.pending id false }
    else .error .invalid

end Locking

/-! ## What every step keeps -/

/-- Between the lock and the unlock of the look-up. -/
def Sender.locked : Sender → Bool
  | .getSocket _ | .getClientSockAddr _ _ | .getClientFlag _ _ _ | .unlock _ _ _ _ => true
  | _ => false

/-- What is left for a thread, given whether it holds the lock. -/
def Agent.Fits (held : Bool) : Agent → Prop
  | .send stage => stage.locked = held
  | .receive rest | .lines rest => rest.Follows Op.mutex false held

theorem Agent.created_fits (routine : Routine) : (Agent.created routine).Fits false := by
  cases routine with
  | cmdSend => rfl
  | retReceive => exact ⟨false, rfl, fun _ => rfl⟩
  | scriptCmdProcess => exact scriptCmdProcess_balanced

namespace Locking

variable {host : Host} {self : Option Tid} {s t : Locking}

/-- No thread that has ended holds the lock. -/
def Kept (s : Locking) : Prop := ∀ self, s.agent self = none → s.gMutex ≠ some self

structure Inv (s : Locking) : Prop where
  agents : ∀ self agent, s.agent self = some agent → agent.Fits (decide (s.gMutex = some self))
  kept : s.Kept
  joinable : ∀ id, (s.agent (some id)).isSome → s.world.shared.joinable id = true

/-- The same without what is left for a thread that takes a step. -/
structure Others (thread : Option Tid) (s : Locking) : Prop where
  alive : (s.agent thread).isSome
  agents : ∀ other agent, other ≠ thread → s.agent other = some agent →
    agent.Fits (decide (s.gMutex = some other))
  kept : ∀ other, other ≠ thread → s.agent other = none → s.gMutex ≠ some other
  joinable : ∀ id, (s.agent (some id)).isSome → s.world.shared.joinable id = true

theorem boot_inv (world : World) : (boot world).Inv := by
  constructor
  case agents =>
    intro self agent hagent
    by_cases main : self = none
    · subst main
      obtain rfl : Agent.lines (.pure ()) = agent := by simpa [boot] using hagent
      exact rfl
    · simp [boot, main] at hagent
  case kept => exact fun self _ held => by cases held
  case joinable => simp [boot]

theorem Inv.others (inv : s.Inv) {agent : Agent} (mine : s.agent self = some agent) :
    s.Others self where
  alive := by simp [mine]
  agents other agent _ := inv.agents other agent
  kept other _ := inv.kept other
  joinable := inv.joinable

theorem Others.settle (others : s.Others self) {agent : Agent}
    (fits : agent.Fits (decide (s.gMutex = some self))) : (s.setAgent self (some agent)).Inv := by
  constructor
  case agents =>
    intro other agent' hagent
    by_cases own : other = self
    · subst own
      obtain rfl : agent = agent' := by simpa [setAgent] using hagent
      exact fits
    · exact others.agents other agent' own (by simpa [setAgent, own] using hagent)
  case kept =>
    intro other ended
    by_cases own : other = self
    · simp [setAgent, own] at ended
    · exact others.kept other own (by simpa [setAgent, own] using ended)
  case joinable =>
    intro id alive
    by_cases own : some id = self
    · exact others.joinable id (own ▸ others.alive)
    · exact others.joinable id (by simpa [setAgent, own] using alive)

/-- A thread ends that does not hold the lock. -/
theorem Inv.leave (inv : s.Inv) (free : s.gMutex ≠ some self) : (s.setAgent self none).Inv := by
  constructor
  case agents =>
    intro other agent hagent
    by_cases own : other = self
    · simp [setAgent, own] at hagent
    · exact inv.agents other agent (by simpa [setAgent, own] using hagent)
  case kept =>
    intro other ended
    by_cases own : other = self
    · exact own ▸ free
    · exact inv.kept other (by simpa [setAgent, own] using ended)
  case joinable =>
    intro id alive
    by_cases own : some id = self
    · simp [setAgent, own] at alive
    · exact inv.joinable id (by simpa [setAgent, own] using alive)

theorem Others.take (others : s.Others self) (free : s.gMutex = none) :
    Others self { s with gMutex := some self } where
  alive := others.alive
  agents other agent hother hagent := by
    simpa [free, Ne.symm hother] using others.agents other agent hother hagent
  kept other hother _ := by simpa using Ne.symm hother
  joinable := others.joinable

theorem Others.release (others : s.Others self) (held : s.gMutex = some self) :
    Others self { s with gMutex := none } where
  alive := others.alive
  agents other agent hother hagent := by
    simpa [held, Ne.symm hother] using others.agents other agent hother hagent
  kept other _ _ := by simp
  joinable := others.joinable

/-- The lock and the threads stay as they are. -/
theorem Others.world (others : s.Others self) (lock : t.gMutex = s.gMutex) (agent : t.agent = s.agent)
    (joinable : ∀ id, (s.agent (some id)).isSome → s.world.shared.joinable id = true →
      t.world.shared.joinable id = true) : t.Others self where
  alive := agent ▸ others.alive
  agents other a hother hagent := by
    rw [lock]
    exact others.agents other a hother (agent ▸ hagent)
  kept other hother ended := by
    rw [lock]
    exact others.kept other hother (agent ▸ ended)
  joinable id alive := by
    rw [agent] at alive
    exact joinable id alive (others.joinable id alive)

theorem Others.create (others : s.Others self) {id : Tid} (fresh : s.world.shared.joinable id = false)
    (routine : Routine) {shared : Shared}
    (created : shared.joinable = Function.update s.world.shared.joinable id true) :
    (s.create id routine shared).Others self := by
  have unborn : s.agent (some id) = none := by
    cases hagent : s.agent (some id) with
    | none => rfl
    | some agent =>
      have := others.joinable id (by simp [hagent])
      simp [fresh] at this
  have apart : self ≠ some id := by
    rintro rfl
    simpa [unborn] using others.alive
  constructor
  case alive => simpa [Locking.create, setAgent, setShared, apart] using others.alive
  case agents =>
    intro other agent hother hagent
    by_cases new : other = some id
    · subst new
      obtain rfl : Agent.created routine = agent := by
        simpa [Locking.create, setAgent, setShared] using hagent
      have free : s.gMutex ≠ some (some id) := others.kept _ (Ne.symm apart) unborn
      simpa [Locking.create, setAgent, setShared, free] using Agent.created_fits routine
    · exact others.agents other agent hother
        (by simpa [Locking.create, setAgent, setShared, new] using hagent)
  case kept =>
    intro other hother ended
    by_cases new : other = some id
    · simp [Locking.create, setAgent, new] at ended
    · exact others.kept other hother (by simpa [Locking.create, setAgent, setShared, new] using ended)
  case joinable =>
    intro id' alive
    show shared.joinable id' = true
    rw [created]
    by_cases new : id' = id
    · simp [new]
    · rw [Function.update_of_ne new]
      exact others.joinable id' (by simpa [Locking.create, setAgent, setShared, new] using alive)

/-- An operation on the rest of the state. -/
theorem Others.interp (others : s.Others self) {o : Op} {r : o.Res}
    (h : s.operate host self o = .ok (r, t))
    (rest : s.operate host self o = match interp host (fun _ => .ok) o s.world with
      | .ok (r, world) => .ok (r, { s with world := world })
      | .error f => .error f)
    (beside : .joinable ∉ o.writes) : t.Others self ∧ t.gMutex = s.gMutex := by
  rw [rest] at h
  cases hstep : AutoTest.interp host (fun _ => .ok) o s.world with
  | error f => simp [hstep] at h
  | ok answer =>
    obtain ⟨r', world⟩ := answer
    simp only [hstep, Except.ok.injEq, Prod.mk.injEq] at h
    obtain ⟨-, rfl⟩ := h
    have same : world.shared.joinable = s.world.shared.joinable :=
      interp_frame (p := .joinable) beside hstep
    exact ⟨others.world rfl rfl fun id _ joinable => same ▸ joinable, rfl⟩

/-- What an operation does to the lock is what the automaton says. -/
theorem operate_others (others : s.Others self) {o : Op} {r : o.Res} {held : Bool}
    (accepted : o.mutex (decide (s.gMutex = some self)) = some held)
    (h : s.operate host self o = .ok (r, t)) :
    t.Others self ∧ decide (t.gMutex = some self) = held := by
  have beside {u : Locking} (same : u.gMutex = s.gMutex)
      (kept : some (decide (s.gMutex = some self)) = some held) :
      decide (u.gMutex = some self) = held := by
    rw [same]
    exact Option.some.inj kept
  cases o with
  | lock =>
    simp only [operate] at h
    split at h
    · rename_i free
      cases h
      refine ⟨others.take free, ?_⟩
      simpa [Op.mutex, free] using accepted
    · cases h
  | unlock =>
    simp only [operate, Except.ok.injEq, Prod.mk.injEq, true_and] at h
    subst h
    by_cases mine : s.gMutex = some self
    · refine ⟨others.release mine, ?_⟩
      simpa [Op.mutex, mine] using accepted
    · simp [Op.mutex, mine] at accepted
  | signal =>
    simp only [operate, Except.ok.injEq, Prod.mk.injEq, true_and] at h
    subst h
    exact ⟨others.world rfl rfl fun _ _ joinable => joinable, beside rfl accepted⟩
  | pthreadCreate routine =>
    simp only [operate] at h
    rcases s.world.shared.pthreadCreate_cases host with refused | ⟨id, -, fresh, created⟩
    · simp only [refused, Except.ok.injEq, Prod.mk.injEq] at h
      obtain ⟨-, rfl⟩ := h
      exact ⟨others.world rfl rfl fun _ _ joinable => joinable, beside rfl accepted⟩
    · simp only [created, Except.ok.injEq, Prod.mk.injEq] at h
      obtain ⟨-, rfl⟩ := h
      exact ⟨others.create fresh routine rfl, beside rfl accepted⟩
  | pthreadKill id =>
    simp only [operate] at h
    split at h
    · cases h
      exact ⟨others.world rfl rfl fun _ _ joinable => joinable, beside rfl accepted⟩
    · cases h
  | pthreadJoin id =>
    simp only [operate] at h
    split at h
    · cases h
    · rename_i ended
      split at h
      · rename_i shared hjoin
        cases h
        obtain ⟨-, rfl⟩ := Shared.pthreadJoin_ok hjoin
        refine ⟨others.world rfl rfl fun other alive joinable => ?_, beside rfl accepted⟩
        have apart : other ≠ id := by
          rintro rfl
          exact ended alive
        simpa [setShared, apart] using joinable
      · cases h
  | call line =>
    obtain ⟨after, same⟩ := others.interp h rfl (by simp [Op.writes])
    refine ⟨after, ?_⟩
    rw [same]
    by_cases mine : s.gMutex = some self
    · simp [Op.mutex, mine] at accepted
    · simpa [Op.mutex, mine] using accepted
  | pthreadExit =>
    obtain ⟨after, same⟩ := others.interp h rfl (by simp [Op.writes])
    refine ⟨after, ?_⟩
    rw [same]
    by_cases mine : s.gMutex = some self
    · simp [Op.mutex, mine] at accepted
    · simpa [Op.mutex, mine] using accepted
  | _ =>
    obtain ⟨after, same⟩ := others.interp h rfl (by simp [Op.writes])
    exact ⟨after, beside same accepted⟩

/-- A step of a function that releases the lock before it ends. -/
theorem advanceRest_inv (inv : s.Inv) {agent : Cmd Unit → Agent}
    (fits : ∀ rest held, (agent rest).Fits held ↔ rest.Follows Op.mutex false held) {rest : Cmd Unit}
    (mine : s.agent self = some (agent rest)) (h : s.advanceRest host self agent rest = .ok t) :
    t.Inv := by
  have follows := (fits _ _).mp (inv.agents self _ mine)
  have others := inv.others mine
  cases rest with
  | pure a => cases h
  | op o k =>
    obtain ⟨held, accepted, after⟩ := follows
    have operated (hstep : (match s.operate host self o with
        | .ok (r, s) => .ok (s.setAgent self (some (agent (k r))))
        | .error f => .error f) = (.ok t : Except Fault Locking)) : t.Inv := by
      cases hop : s.operate host self o with
      | error f => simp [hop] at hstep
      | ok answer =>
        simp only [hop, Except.ok.injEq] at hstep
        subst hstep
        obtain ⟨others', same⟩ := operate_others (r := answer.1) (t := answer.2) others accepted hop
        refine others'.settle ((fits _ _).mpr ?_)
        rw [same]
        exact after answer.1
    cases o with
    | pthreadExit =>
      simp only [advanceRest, Except.ok.injEq] at h
      subst h
      apply inv.leave
      intro held
      simp [Op.mutex, held] at accepted
    | call line =>
      simp only [advanceRest, Except.ok.injEq] at h
      subst h
      refine others.settle ((fits _ _).mpr ?_)
      by_cases locked : s.gMutex = some self
      · simp [Op.mutex, locked] at accepted
      · obtain rfl : false = held := by simpa [Op.mutex, locked] using accepted
        simpa [locked] using (cmdProc_balanced line).bind after
    | _ => exact operated h

/-- Outside of its lock and unlock, the sender keeps what it holds. -/
theorem step_locked {stage next : Sender} {s s' : Shared} {gone : List (MsgQ × Fate)}
    (outside : ∀ m, stage ≠ .lock m) (inside : ∀ m fd addr flag, stage ≠ .unlock m fd addr flag)
    (h : stage.step s = .ok (next, s', gone)) : next.locked = stage.locked := by
  cases stage with
  | signal | getSocket | getClientFlag | sendto =>
    cases h
    rfl
  | lock m => exact absurd rfl (outside m)
  | unlock m fd addr flag => exact absurd rfl (inside m fd addr flag)
  | msgrcv =>
    simp only [Sender.step] at h
    split at h
    · cases h
      rfl
    · split at h <;> cases h <;> rfl
  | getClientSockAddr m fd =>
    simp only [Sender.step] at h
    split at h <;> cases h
    rfl

theorem advanceSend_inv (inv : s.Inv) {stage : Sender} (mine : s.agent self = some (.send stage))
    (h : s.advanceSend self stage = .ok t) : t.Inv := by
  have others := inv.others mine
  have locked : stage.locked = decide (s.gMutex = some self) := inv.agents self _ mine
  have moved {next : Sender} {shared : Shared} {gone : List (MsgQ × Fate)}
      (hstep : stage.step s.world.shared = .ok (next, shared, gone)) :
        Others self (s.setShared shared) := by
    have same : shared.joinable = s.world.shared.joinable := by rw [(Sender.step_moves hstep).1]
    exact others.world rfl rfl fun id _ joinable => by simpa [setShared, same] using joinable
  cases stage with
  | signal =>
    simp only [advanceSend, Except.ok.injEq] at h
    subst h
    have installed : Others self { s with handler := true } :=
      others.world rfl rfl fun _ _ joinable => joinable
    refine installed.settle ?_
    exact locked
  | lock m =>
    simp only [advanceSend] at h
    split at h
    · rename_i free
      cases h
      exact (others.take free).settle (by simp [Agent.Fits, Sender.locked])
    · cases h
  | unlock m socketFd clientAddr useFlag =>
    have held : s.gMutex = some self := by simpa [Sender.locked] using locked
    simp only [advanceSend] at h
    split at h
    · rename_i next shared gone hstep
      cases h
      refine ((moved hstep).release held).settle ?_
      simp only [Sender.step] at hstep
      split at hstep <;> cases hstep <;> rfl
    · cases h
  | _ =>
    simp only [advanceSend] at h
    split at h
    · rename_i next shared gone hstep
      cases h
      refine (moved hstep).settle ?_
      exact (step_locked (by simp) (by simp) hstep).trans locked
    · cases h

theorem step_inv {e : LockEvent} (inv : s.Inv)
    (clear : ∀ id, e = .deliver id → s.gMutex ≠ some (some id))
    (h : step host e s = .ok t) : t.Inv := by
  cases e with
  | line line =>
    simp only [step] at h
    split at h
    · rename_i mine
      cases h
      have locked : decide (s.gMutex = some none) = false := inv.agents none _ mine
      exact (inv.others mine).settle (locked ▸ cmdProc_balanced line)
    · cases h
  | log id text =>
    simp only [step] at h
    split at h
    · rename_i mine
      cases h
      have locked : decide (s.gMutex = some (some id)) = false := inv.agents _ _ mine
      exact (inv.others mine).settle (locked ▸ syslogProcess_balanced text)
    · cases h
  | advance self =>
    simp only [step] at h
    split at h
    · rename_i stage mine
      exact advanceSend_inv inv mine h
    · rename_i rest mine
      exact advanceRest_inv inv (fun _ _ => Iff.rfl) mine h
    · rename_i rest mine
      exact advanceRest_inv inv (fun _ _ => Iff.rfl) mine h
    · cases h
  | deliver id =>
    simp only [step] at h
    split at h
    · cases h
      have left := inv.leave (clear id rfl)
      exact ⟨left.agents, left.kept, left.joinable⟩
    · cases h

/-- A signal does not arrive at the thread that holds the lock. -/
def Careful : LockEvent → Locking → Prop
  | .deliver id, s => s.Arrives id → s.gMutex ≠ some (some id)
  | _, _ => True

/-- A lock is lost exactly when a signal arrives between a lock and its unlock. -/
theorem lock_kept_iff (host : Host) (world : World) (run : List LockEvent) :
    Always (step host) Kept run (boot world) ↔ Along (step host) Careful run (boot world) := by
  apply always_iff_along Inv
  · intro e s t inv careful h
    refine step_inv inv ?_ h
    rintro id rfl
    simp only [step] at h
    split at h
    · rename_i arrives
      exact careful arrives
    · cases h
  · exact fun s inv => inv.kept
  · intro e s inv careless
    cases e with
    | deliver id =>
      simp only [Careful, Classical.not_imp, not_not] at careless
      obtain ⟨arrives, holder⟩ := careless
      refine ⟨_, if_pos arrives, ?_⟩
      intro kept
      exact kept (some id) (by simp [setAgent]) holder
    | line | log | advance => exact absurd trivial careless
  · exact boot_inv world

/-! ### A stop between the lock and the unlock -/

/-- A host whose threads are numbered by the calls made before. -/
def sampleHost : Host := .willing (fun n => 5 + n) (fun n => some (n + 1)) fun _ => none

/-- The line is read and its handler takes so many steps. -/
def typed (line : Text) (count : Nat) : List LockEvent :=
  .line line :: List.replicate count (.advance none)

/-- The sender, which is thread 4, has the lock for its look-up when the signal
of `stop` arrives. -/
def stoppedLocked : List LockEvent :=
  typed "start test".toList 14 ++ typed "call 1 100".toList 8 ++ List.replicate 3
    (.advance (some 4)) ++
    typed "stop test".toList 7 ++ [.deliver 4]

theorem stoppedLocked_loses : ¬ ∀ s, runAll (step sampleHost) stoppedLocked
    (boot ⟨.initial, .initial fun _ => none⟩) = .ok s → s.Kept := by
  intro kept
  have found : (runAll (step sampleHost) stoppedLocked
    (boot ⟨.initial, .initial fun _ => none⟩)).toOption.map
      (fun s => ((s.agent (some 4)).isSome, s.gMutex)) = some (false, some (some 4)) := by
    decide +kernel
  cases reached : runAll (step sampleHost) stoppedLocked
    (boot ⟨.initial, .initial fun _ => none⟩) with
  | error f => simp [reached, Except.toOption] at found
  | ok s =>
    simp only [reached, Except.toOption, Option.map_some, Option.some.injEq, Prod.mk.injEq] at found
    exact kept s reached (some 4) (by simpa using found.1) found.2

end Locking

end AutoTest
