import Mathlib.Data.Fintype.Defs
import AutoTest.Process
import AutoTest.RegistryMap

/-!
# The registry among threads

Threads add and remove clients and look them up to send. A part under `gMutex`
is one step, and so is the call of `socket`; between two steps of a thread any
other thread may take steps.

* `Job.step`: one step of a thread.
* `add_alone`, `del_alone`, `lookUp_alone`: without other threads the steps are
  those of the handlers and of `cmd_send`.
* `step_inv`: what every step keeps, unless it removes a client or reserves a
  socket at the wrong time.
* `added_once`: then every client has one socket and one address.
* `sends_live`: and every message is sent on the open socket of its client.
-/

namespace AutoTest

open CString Strtok Program

/-- Where a run of `addClient` is: before the test of the flag, inside
`network_config` before its own test, before `socket`, before the address is
stored, and before the client is made USED. -/
inductive AddStage where
  | check
  | config
  | socket
  | addr
  | commit
  deriving DecidableEq, Repr

inductive Job where
  | idle
  | add (stage : AddStage) (n : Client) (ipAddr : Text)
  | delCheck (n : Client)
  | remove (n : Client)
  | lookUp (n : Client)
  | sendto (n : Client) (socketFd : Int) (clientAddr : SockAddr)
  deriving DecidableEq, Repr

/-- What a thread is given to do: `add`, `del`, a `suspended` log, a message. -/
inductive Task where
  | add (n : Client) (ipAddr : Text)
  | del (n : Client)
  | suspend (n : Client)
  | message (n : Client)
  deriving DecidableEq, Repr

def Task.job : Task → Job
  | .add n ipAddr => .add .check n ipAddr
  | .del n => .delCheck n
  | .suspend n => .remove n
  | .message n => .lookUp n

namespace Job

variable (inet : Inet) (answer : Nat → Int)

/-- One step of a thread and what is left of its job. -/
def step : Job → Net → Except Fault (Job × Net)
  | .idle, _ => .error .invalid
  | .add .check n ipAddr, s =>
    .ok (if s.getClientFlag n = used then .idle else .add .config n ipAddr, s)
  | .add .config n ipAddr, s =>
    .ok (if !Net.isValidIp inet ipAddr then .idle
      else if s.gClientFlag n = used then .idle
      else .add .socket n ipAddr, s)
  | .add .socket n ipAddr, s =>
    .ok (if (s.socket answer n).1 = failed then .idle else .add .addr n ipAddr, s.reserve answer n)
  | .add .addr n ipAddr, s =>
    .ok (.add .commit n ipAddr,
      s.setClientSockAddr n ⟨afInet, serverPort, (inet.aton ipAddr).getD 0⟩)
  | .add .commit n ipAddr, s => do
    let s ← (s.setClientFlag n used).setClientIpAddr n ipAddr
    .ok (.idle, s)
  | .delCheck n, s => .ok (if s.getClientFlag n = unused then .idle else .remove n, s)
  | .remove n, s => do
    let s ← (s.setClientFlag n unused).setClientIpAddr n []
    let s ← s.closeSocket n
    .ok (.idle, s.delClientSockAddr n)
  | .lookUp n, s => do
    let socketFd := s.getSocket n
    let clientAddr ← s.getClientSockAddr n
    .ok (if s.getClientFlag n = unused then .idle else .sendto n socketFd clientAddr, s)
  | .sendto _ _ _, s => .ok (.idle, s)

/-- Steps up to the end of the job, without other threads. -/
def alone : Nat → Job → Net → Except Fault Net
  | _, .idle, s => .ok s
  | 0, _, _ => .error .diverge
  | fuel + 1, job, s =>
    match job.step inet answer s with
    | .ok (job, s) => alone fuel job s
    | .error f => .error f

section Steps

variable {inet answer} {n : Client} {s : Net}

theorem step_commit {ipAddr : Text} (short : ipAddr.length < maxIpLenth) :
    step inet answer (.add .commit n ipAddr) s =
      .ok (.idle, (s.withFlag n used).withText n ipAddr) := by
  simp [step, Net.setClientIpAddr_client _ _ short, bind, Except.bind]

theorem step_remove : step inet answer (.remove n) s = .ok (.idle, s.remove n) := by
  simp [step, bind, Except.bind, Net.remove]

theorem step_lookUp : step inet answer (.lookUp n) s =
    .ok (if s.gClientFlag n = unused then .idle else .sendto n (s.gSockets n)
      (s.clientSockAddr n), s) := by
  by_cases flag : s.gClientFlag n = unused <;>
    simp [step, Net.getSocket, Net.getClientSockAddr, flag, bind, Except.bind]

theorem step_addr {ipAddr : Text} : step inet answer (.add .addr n ipAddr) s =
    .ok (.add .commit n ipAddr,
      s.withSockAddr n ⟨afInet, serverPort, (inet.aton ipAddr).getD 0⟩) := by
  simp [step]

end Steps

/-! ### The handlers and `cmd_send` without other threads -/

theorem add_alone (n : Client) (ipAddr : Text) (s : Net) :
    alone inet answer 5 (.add .check n ipAddr) s = .ok (s.add inet answer n ipAddr) := by
  simp only [Net.add, clientIndex_cast, Net.insert]
  by_cases flag : s.gClientFlag n = used
  · simp [alone, step, flag]
  cases valid : inet.pton ipAddr with
  | none => simp [alone, step, flag, Net.isValidIp, valid]
  | some v =>
    have short : ipAddr.length < maxIpLenth := by
      have := inet.short ipAddr v valid
      simp only [maxIpLenth]
      omega
    by_cases sock : (s.socket answer n).1 = failed
    · simp [alone, step, flag, Net.isValidIp, valid, sock]
    · simp [alone, step, flag, Net.isValidIp, valid, sock, Net.setClientIpAddr_client _ _ short, bind,
        Except.bind]

theorem del_alone (n : Client) (s : Net) : alone inet answer 2 (.delCheck n) s = .ok (s.del n) := by
  simp only [Net.del, clientIndex_cast]
  by_cases flag : s.gClientFlag n = unused
  · simp [alone, step, flag]
  · simp [alone, step, flag, Net.remove, bind, Except.bind]

theorem suspend_alone (n : Client) (s : Net) :
    alone inet answer 1 (.remove n) s = .ok (s.remove n) := by
  simp [alone, step_remove]

/-- Where the sender is after its look-up for the message. -/
def sender (m : MsgQ) : Job → Sender
  | .sendto _ socketFd clientAddr => .sendto m socketFd clientAddr
  | _ => .msgrcv

/-- The five steps of `cmd_send` from its lock to its unlock. -/
theorem lookUp_alone {m : MsgQ} {n : Client} (number : m.clientNum = n) (s : Shared) :
    runAll (fun _ stage => (Sender.step s stage).map fun r => r.1) (List.replicate 5 ()) (.lock m) =
      (step inet answer (.lookUp n) s.net).map fun r => sender m r.1 := by
  rw [step_lookUp]
  by_cases flag : s.net.gClientFlag n = unused <;>
    simp [runAll, List.replicate, Sender.step, Except.map, number, Net.getSocket,
      Net.getClientSockAddr, flag, sender]

end Job

/-! ## Threads -/

/-- The threads, the registry, and for each client the addresses of the runs
of `addClient` that reported success since its last removal. -/
structure Sections (ι : Type) where
  net : Net
  job : ι → Job
  added : Client → List Text

inductive SectionEvent (ι : Type) where
  | take (i : ι) (task : Task)
  | advance (i : ι)

namespace Sections

variable {ι : Type} [DecidableEq ι] (inet : Inet) (answer : Nat → Int)

def idle (net : Net) : Sections ι := ⟨net, fun _ => .idle, fun _ => []⟩

/-- A commit reports success, a removal begins a new count. -/
def report (job : Job) (added : Client → List Text) : Client → List Text :=
  match job with
  | .add .commit n ipAddr => Function.update added n (added n ++ [ipAddr])
  | .remove n => Function.update added n []
  | _ => added

def step : SectionEvent ι → Sections ι → Except Fault (Sections ι)
  | .take i task, s =>
    if s.job i = .idle then .ok { s with job := Function.update s.job i task.job }
    else .error .invalid
  | .advance i, s =>
    match (s.job i).step inet answer s.net with
    | .ok (job, net) => .ok ⟨net, Function.update s.job i job, report (s.job i) s.added⟩
    | .error f => .error f

end Sections

/-! ## What a client is promised -/

/-- From `socket` on the run has passed both tests of the flag. -/
def AddStage.reserves : AddStage → Bool
  | .check | .config => false
  | .socket | .addr | .commit => true

/-- The entry of the client holds the socket of the run. -/
def AddStage.holds : AddStage → Bool
  | .check | .config | .socket => false
  | .addr | .commit => true

theorem AddStage.holds_reserves {stage : AddStage} (h : stage.holds) : stage.reserves := by
  cases stage <;> simp_all [holds, reserves]

/-- The address text stands for the socket address of the client. -/
def Addressed (inet : Inet) (n : Client) (ipAddr : Text) (net : Net) : Prop :=
  ∃ v, inet.pton ipAddr = some v ∧ net.clientSockAddr n = ⟨afInet, serverPort, v⟩

theorem Addressed.same {inet : Inet} {n : Client} {ipAddr : Text} {s s' : Net}
    (h : Addressed inet n ipAddr s) (same : Net.SameEntry n s s') : Addressed inet n ipAddr s' := by
  obtain ⟨v, valid, addr⟩ := h
  exact ⟨v, valid, same.addr.trans addr⟩

/-- What concerns the client `m` is the same in two registries. -/
structure Apart (m : Client) (s s' : Net) : Prop where
  entry : Net.SameEntry m s s'
  fds : ∀ d, s'.fds d = some (.client m) ↔ s.fds d = some (.client m)

theorem Apart.refl (m : Client) (s : Net) : Apart m s s := ⟨.refl m s, fun _ => Iff.rfl⟩

/-- The client whose entry the next step of a job writes. -/
def Job.writes : Job → Option Client
  | .add .socket n _ | .add .addr n _ | .add .commit n _ | .remove n => some n
  | _ => none

/-- The client of the message that the next step of a job sends. -/
def Job.sends : Job → Option Client
  | .sendto n _ _ => some n
  | _ => none

section Apart

variable {m n : Client} (other : m ≠ n) (s : Net)
include other

theorem reserve_apart (answer : Nat → Int) : Apart m s (s.reserve answer n) := by
  rcases s.socket_cases answer n with ⟨d, -, fresh, hsock⟩ | hsock
  · simp only [Net.reserve, hsock]
    refine ⟨⟨rfl, by simp [other], rfl, rfl⟩, ?_⟩
    intro e
    by_cases new : e = d
    · simp [new, fresh, Ne.symm other]
    · simp [new]
  · simp only [Net.reserve, hsock]
    exact ⟨⟨rfl, by simp [other], rfl, rfl⟩, fun _ => Iff.rfl⟩

/-- Unless it closes a socket of another client. -/
theorem remove_apart (own : s.gSockets n = error ∨ s.fds (s.gSockets n) ≠ some (.client m)) :
    Apart m s (s.remove n) := by
  refine ⟨Net.remove_other other s, ?_⟩
  intro e
  rw [Net.remove_fds]
  split
  · exact Iff.rfl
  · rename_i nonempty
    by_cases closed : e = s.gSockets n
    · subst closed
      simp [own.resolve_left nonempty]
    · rw [Function.update_of_ne closed]

theorem withSockAddr_apart (addr : SockAddr) : Apart m s (s.withSockAddr n addr) :=
  ⟨⟨rfl, rfl, rfl, by simp [Net.withSockAddr, other]⟩, fun _ => Iff.rfl⟩

theorem commit_apart (ipAddr : Text) : Apart m s ((s.withFlag n used).withText n ipAddr) :=
  ⟨⟨by simp [Net.withFlag, Net.withText, other], rfl, by simp [Net.withFlag,
    Net.withText, other], rfl⟩,
    fun _ => Iff.rfl⟩

end Apart

theorem Job.step_apart {inet : Inet} {answer : Nat → Int} {job job' : Job} {m : Client} {s s' : Net}
    (hstep : job.step inet answer s = .ok (job', s')) (other : job.writes ≠ some m)
    (own : ∀ n, job = .remove n → s.gSockets n = error ∨ s.fds (s.gSockets n) ≠ some (.client m)) :
    Apart m s s' := by
  cases job with
  | idle => cases hstep
  | add stage n ipAddr =>
    cases stage with
    | check | config =>
      cases hstep
      exact .refl m s
    | socket =>
      cases hstep
      exact reserve_apart (fun same => other (congrArg some same.symm)) s answer
    | addr =>
      cases Job.step_addr.symm.trans hstep
      exact withSockAddr_apart (fun same => other (congrArg some same.symm)) s _
    | commit =>
      by_cases short : ipAddr.length < maxIpLenth
      · cases (Job.step_commit short).symm.trans hstep
        exact commit_apart (fun same => other (congrArg some same.symm)) s ipAddr
      · simp [step, Net.setClientIpAddr, short, bind, Except.bind] at hstep
  | remove n =>
    cases Job.step_remove.symm.trans hstep
    exact remove_apart (fun same => other (congrArg some same.symm)) s (own n rfl)
  | lookUp n =>
    cases Job.step_lookUp.symm.trans hstep
    exact .refl m s
  | delCheck | sendto =>
    cases hstep
    exact .refl m s

/-- The job is a run of `addClient` at a stage of the kind. -/
def Job.Adding (kind : AddStage → Bool) (n : Client) (job : Job) : Prop :=
  ∃ stage ipAddr, kind stage = true ∧ job = .add stage n ipAddr

instance (kind : AddStage → Bool) (n : Client) : ∀ job : Job, Decidable (job.Adding kind n)
  | .add stage m ipAddr =>
    decidable_of_iff (kind stage = true ∧ m = n) (by
      constructor
      · rintro ⟨hkind, rfl⟩
        exact ⟨stage, ipAddr, hkind, rfl⟩
      · rintro ⟨_, _, hkind, hjob⟩
        cases hjob
        exact ⟨hkind, rfl⟩)
  | .idle | .delCheck _ | .remove _ | .lookUp _ | .sendto _ _ _ =>
    .isFalse (by rintro ⟨_, _, -, hjob⟩; cases hjob)

theorem Job.Adding.writes {m : Client} {job : Job} (h : job.Adding AddStage.reserves m) :
    job.writes = some m := by
  obtain ⟨stage, ipAddr, reserves, rfl⟩ := h
  cases stage with
  | check | config => cases reserves
  | socket | addr | commit => rfl

/-- A job is past the tests when it was so before, or has just passed them. -/
theorem Job.step_reserves {inet : Inet} {answer : Nat → Int} {job job' : Job}
    {m : Client} {s s' : Net}
    (hstep : job.step inet answer s = .ok (job', s')) (reserves : job'.Adding AddStage.reserves m) :
    job.writes = some m ∨ ∃ ipAddr, job = .add .config m ipAddr ∧ job' = .add .socket m ipAddr ∧
      (inet.pton ipAddr).isSome ∧ s.gClientFlag m ≠ used ∧ s' = s := by
  obtain ⟨stage', ipAddr', hs, rfl⟩ := reserves
  cases job with
  | idle => cases hstep
  | add stage n ipAddr =>
    cases stage with
    | check =>
      simp only [step, Except.ok.injEq, Prod.mk.injEq] at hstep
      obtain ⟨hjob, -⟩ := hstep
      split at hjob <;> cases hjob
      cases hs
    | config =>
      simp only [step, Except.ok.injEq, Prod.mk.injEq] at hstep
      obtain ⟨hjob, rfl⟩ := hstep
      split at hjob
      · cases hjob
      · rename_i valid
        split at hjob
        · cases hjob
        · rename_i free
          cases hjob
          exact .inr ⟨_, rfl, rfl,
            by simpa [Net.isValidIp, Option.isSome_iff_ne_none] using valid, free, rfl⟩
    | socket =>
      simp only [step, Except.ok.injEq, Prod.mk.injEq] at hstep
      obtain ⟨hjob, -⟩ := hstep
      split at hjob <;> cases hjob
      exact .inl rfl
    | addr =>
      cases Job.step_addr.symm.trans hstep
      exact .inl rfl
    | commit =>
      by_cases short : ipAddr.length < maxIpLenth
      · cases (Job.step_commit short).symm.trans hstep
      · simp [step, Net.setClientIpAddr, short, bind, Except.bind] at hstep
  | delCheck n =>
    simp only [step, Except.ok.injEq, Prod.mk.injEq] at hstep
    obtain ⟨hjob, -⟩ := hstep
    split at hjob <;> cases hjob
  | remove n => cases Job.step_remove.symm.trans hstep
  | lookUp n =>
    simp only [Job.step_lookUp, Except.ok.injEq, Prod.mk.injEq] at hstep
    obtain ⟨hjob, -⟩ := hstep
    split at hjob <;> cases hjob
  | sendto => cases hstep

/-- A descriptor and an address to send to come from a look-up of a USED client. -/
theorem Job.step_sends {inet : Inet} {answer : Nat → Int} {job : Job} {n : Client} {socketFd : Int}
    {clientAddr : SockAddr} {s s' : Net}
    (hstep : job.step inet answer s = .ok (.sendto n socketFd clientAddr, s')) :
    s.gClientFlag n ≠ unused ∧ s.gSockets n = socketFd ∧
      s.clientSockAddr n = clientAddr ∧ s' = s := by
  cases job with
  | idle | sendto => cases hstep
  | add stage m ipAddr =>
    cases stage with
    | check | config | socket =>
      simp only [step, Except.ok.injEq, Prod.mk.injEq] at hstep
      obtain ⟨hjob, -⟩ := hstep
      repeat' split at hjob
      all_goals cases hjob
    | addr => cases Job.step_addr.symm.trans hstep
    | commit =>
      by_cases short : ipAddr.length < maxIpLenth
      · cases (Job.step_commit short).symm.trans hstep
      · simp [step, Net.setClientIpAddr, short, bind, Except.bind] at hstep
  | delCheck m =>
    simp only [step, Except.ok.injEq, Prod.mk.injEq] at hstep
    obtain ⟨hjob, -⟩ := hstep
    split at hjob <;> cases hjob
  | remove m => cases Job.step_remove.symm.trans hstep
  | lookUp m =>
    simp only [Job.step_lookUp, Except.ok.injEq, Prod.mk.injEq] at hstep
    obtain ⟨hjob, rfl⟩ := hstep
    split at hjob
    · cases hjob
    · rename_i registered
      cases hjob
      exact ⟨registered, rfl, rfl, rfl⟩

namespace Sections

variable {ι : Type}

/-- A run of `addClient` has passed its tests, and the client is not USED yet. -/
def Reserved (s : Sections ι) (n : Client) : Prop := ∃ i, (s.job i).Adding AddStage.reserves n

/-- And it has its socket. -/
def Held (s : Sections ι) (n : Client) : Prop := ∃ i, (s.job i).Adding AddStage.holds n

instance [Fintype ι] (s : Sections ι) (n : Client) : Decidable (s.Reserved n) :=
  inferInstanceAs (Decidable (∃ i, (s.job i).Adding AddStage.reserves n))

instance [Fintype ι] (s : Sections ι) (n : Client) : Decidable (s.Held n) :=
  inferInstanceAs (Decidable (∃ i, (s.job i).Adding AddStage.holds n))

theorem Held.reserved {s : Sections ι} {n : Client} (h : s.Held n) : s.Reserved n := by
  obtain ⟨i, stage, ipAddr, holds, hjob⟩ := h
  exact ⟨i, stage, ipAddr, AddStage.holds_reserves holds, hjob⟩

/-- An entry among the threads, as far as the `tracked` descriptors go: one
run of `addClient` at most is under way after its tests, and only while the
client is UNUSED; its socket is the only one open for the client. -/
structure Entry (inet : Inet) (tracked : Int → Prop) (n : Client) (s : Sections ι) : Prop where
  flag : s.net.gClientFlag n = used ∨ s.net.gClientFlag n = unused
  opened : s.net.gClientFlag n = used → s.net.fds (s.net.gSockets n) = some (.client n)
  owner : ∀ d, tracked d → s.net.fds d = some (.client n) → s.net.gSockets n = d ∧
    (s.net.gClientFlag n = used ∨ s.Held n)
  one : ∀ i j stage stage' ipAddr ipAddr', AddStage.reserves stage = true →
    AddStage.reserves stage' = true → s.job i = .add stage n ipAddr →
    s.job j = .add stage' n ipAddr' → i = j
  reserved : ∀ i stage ipAddr, AddStage.reserves stage = true → s.job i = .add stage n ipAddr →
    s.net.gClientFlag n = unused ∧ (inet.pton ipAddr).isSome
  held : ∀ i stage ipAddr, AddStage.holds stage = true → s.job i = .add stage n ipAddr →
    s.net.fds (s.net.gSockets n) = some (.client n)
  addressed : ∀ i ipAddr, s.job i = .add .commit n ipAddr → Addressed inet n ipAddr s.net
  added : s.net.gClientFlag n = used → ∃ ipAddr, s.added n = [ipAddr] ∧
    s.net.getClientIpAddr n = some ipAddr ∧ Addressed inet n ipAddr s.net
  removed : s.net.gClientFlag n = unused → s.added n = []

def Inv (inet : Inet) (tracked : Int → Prop) (s : Sections ι) : Prop := ∀ n, s.Entry inet tracked n

/-- What a job may do now. A removal empties an entry that is USED, or one
whose number is no open socket of a client, and no run holds a socket for the
client at that time; a run passes the test in `network_config` only when no
other run is past it. -/
def Allows (inet : Inet) (tracked : Int → Prop) (s : Sections ι) : Job → Prop
  | .add .config n ipAddr => (inet.pton ipAddr).isSome → s.net.gClientFlag n = used ∨ ¬ s.Reserved n
  | .remove n => ¬ s.Held n ∧
    (s.net.gClientFlag n = used → tracked error → s.net.gSockets n ≠ error) ∧
    (s.net.gClientFlag n = unused → s.net.gSockets n = error ∨
      ∀ m, s.net.fds (s.net.gSockets n) ≠ some (.client m))
  | _ => True

def Careful (inet : Inet) (tracked : Int → Prop) : SectionEvent ι → Sections ι → Prop
  | .take _ _, _ => True
  | .advance i, s => s.Allows inet tracked (s.job i)

section Decidable

variable [Fintype ι] (inet : Inet) (tracked : Int → Prop) [Decidable (tracked error)]

instance (s : Sections ι) : ∀ job, Decidable (s.Allows inet tracked job)
  | .add .config n ipAddr => inferInstanceAs
    (Decidable ((inet.pton ipAddr).isSome → s.net.gClientFlag n = used ∨ ¬ s.Reserved n))
  | .remove n => inferInstanceAs (Decidable (¬ s.Held n ∧
    (s.net.gClientFlag n = used → tracked error → s.net.gSockets n ≠ error) ∧
    (s.net.gClientFlag n = unused → s.net.gSockets n = error ∨
      ∀ m, s.net.fds (s.net.gSockets n) ≠ some (.client m))))
  | .add .check _ _ | .add .socket _ _ | .add .addr _ _ | .add .commit _ _ | .idle | .delCheck _
  | .lookUp _ | .sendto _ _ _ => .isTrue trivial

instance : ∀ (e : SectionEvent ι) (s : Sections ι), Decidable (Careful inet tracked e s)
  | .take _ _, _ => .isTrue trivial
  | .advance i, s => inferInstanceAs (Decidable (s.Allows inet tracked (s.job i)))

end Decidable

theorem idle_inv {inet : Inet} {tracked : Int → Prop} (opened : Int → Bool) :
    (idle (.empty (processFds opened)) : Sections ι).Inv inet tracked := by
  intro n
  have off : (Net.empty (processFds opened)).gClientFlag n ≠ used := by simp [Net.empty, used, unused]
  constructor
  case flag => exact .inr rfl
  case owner =>
    intro d _ hfd
    simp only [idle, Net.empty, processFds] at hfd
    split at hfd <;> cases hfd
  case opened | added => exact fun h => absurd h off
  case removed => exact fun _ => rfl
  all_goals intros; simp_all [idle]

/-! ### Other clients -/

/-- What concerns the client `m` is the same. -/
structure Away (m : Client) (s s' : Sections ι) : Prop where
  net : Apart m s.net s'.net
  added : s'.added m = s.added m
  jobs : ∀ i stage ipAddr, AddStage.reserves stage = true →
    (s'.job i = .add stage m ipAddr ↔ s.job i = .add stage m ipAddr)

variable {inet : Inet} {tracked : Int → Prop} {n m : Client} {s s' : Sections ι}

theorem Entry.away (h : s.Entry inet tracked m) (away : Away m s s') : s'.Entry inet tracked m := by
  have flag := away.net.entry.flag
  have socket := away.net.entry.socket
  have text : s'.net.getClientIpAddr m = s.net.getClientIpAddr m := away.net.entry.seen.text
  constructor
  case flag => simpa only [flag] using h.flag
  case opened =>
    intro hused
    rw [socket, away.net.fds]
    exact h.opened (flag ▸ hused)
  case owner =>
    intro d hd hfd
    obtain ⟨number, reason⟩ := h.owner d hd ((away.net.fds d).mp hfd)
    refine ⟨socket.trans number, ?_⟩
    rcases reason with hused | ⟨i, stage, ipAddr, holds, hjob⟩
    · exact .inl (flag.trans hused)
    · exact .inr ⟨i, stage, ipAddr, holds,
        (away.jobs i stage ipAddr (AddStage.holds_reserves holds)).mpr hjob⟩
  case one =>
    intro i j stage stage' ipAddr ipAddr' hs hs' hi hj
    exact h.one i j stage stage' ipAddr ipAddr' hs hs' ((away.jobs _ _ _ hs).mp hi)
      ((away.jobs _ _ _ hs').mp hj)
  case reserved =>
    intro i stage ipAddr hs hi
    rw [flag]
    exact h.reserved i stage ipAddr hs ((away.jobs _ _ _ hs).mp hi)
  case held =>
    intro i stage ipAddr hs hi
    rw [socket, away.net.fds]
    exact h.held i stage ipAddr hs ((away.jobs _ _ _ (AddStage.holds_reserves hs)).mp hi)
  case addressed =>
    intro i ipAddr hi
    exact (h.addressed i ipAddr ((away.jobs _ _ _ rfl).mp hi)).same away.net.entry
  case added =>
    intro hused
    obtain ⟨ipAddr, hadded, htext, haddr⟩ := h.added (flag ▸ hused)
    exact ⟨ipAddr, away.added.trans hadded, text.trans htext, haddr.same away.net.entry⟩
  case removed =>
    intro hunused
    rw [away.added]
    exact h.removed (flag ▸ hunused)

/-! ### The client of a step -/

variable {i : ι} {job : Job}

/-- What a run past the tests stands for. -/
structure Pending (inet : Inet) (n : Client) (stage : AddStage) (ipAddr : Text)
    (net : Net) : Prop where
  off : net.gClientFlag n = unused
  valid : (inet.pton ipAddr).isSome
  held : stage.holds = true → net.fds (net.gSockets n) = some (.client n)
  addressed : stage = .commit → Addressed inet n ipAddr net

theorem Pending.free {stage : AddStage} {ipAddr : Text} {net : Net}
    (h : Pending inet n stage ipAddr net) : net.gClientFlag n ≠ used := by
  simp [h.off, used, unused]

theorem idle_pending {net : Net} (stage : AddStage) (ipAddr : Text) (_ : stage.reserves = true)
    (hjob : Job.idle = .add stage n ipAddr) : Pending inet n stage ipAddr net := by
  cases hjob

theorem Entry.pending (h : s.Entry inet tracked n) {stage : AddStage} {ipAddr : Text}
    (mine : s.job i = .add stage n ipAddr) (reserves : stage.reserves = true) :
    Pending inet n stage ipAddr s.net where
  off := (h.reserved i stage ipAddr reserves mine).1
  valid := (h.reserved i stage ipAddr reserves mine).2
  held holds := h.held i stage ipAddr holds mine
  addressed := by
    rintro rfl
    exact h.addressed i ipAddr mine

/-- A run before `socket` has no descriptor yet. -/
theorem Entry.unowned (h : s.Entry inet tracked n) {ipAddr : Text}
    (mine : s.job i = .add .socket n ipAddr) {d : Int} (hd : tracked d) :
    s.net.fds d ≠ some (.client n) := by
  intro hfd
  obtain ⟨-, hused | ⟨k, stage, ipAddr', holds, hk⟩⟩ := h.owner d hd hfd
  · exact (h.pending mine rfl).free hused
  · obtain rfl := h.one k i _ _ _ _ (AddStage.holds_reserves holds) rfl hk mine
    cases hk.symm.trans mine
    cases holds

theorem Careful.own {tracked : Int → Prop} (careful : Careful inet tracked (.advance i) s)
    (h : s.Inv inet tracked) (other : (s.job i).writes ≠ some m) {n : Client}
    (mine : s.job i = .remove n) :
    s.net.gSockets n = error ∨ s.net.fds (s.net.gSockets n) ≠ some (.client m) := by
  have apart : n ≠ m := by
    rintro rfl
    exact other (by rw [mine]; rfl)
  simp only [Careful, mine, Allows] at careful
  rcases (h n).flag with hused | hunused
  · exact .inr (by simp [(h n).opened hused, apart])
  · exact (careful.2.2 hunused).imp id fun stale => stale m

theorem report_other {added : Client → List Text} (other : job.writes ≠ some m) :
    report job added m = added m := by
  have apart {n : Client} (writes : job.writes = some n) : m ≠ n := by
    rintro rfl
    exact other writes
  cases job with
  | add stage n ipAddr =>
    cases stage with
    | commit => exact Function.update_of_ne (apart rfl) _ _
    | _ => rfl
  | remove n => exact Function.update_of_ne (apart rfl) _ _
  | _ => rfl

section Steps

variable [DecidableEq ι]

/-- The only run past the tests is that of the thread that takes the step. -/
theorem Entry.sole (h : s.Entry inet tracked n) {stage : AddStage} {ipAddr : Text}
    (mine : s.job i = .add stage n ipAddr) (reserves : stage.reserves = true) (k : ι)
    (stage' : AddStage) (ipAddr' : Text) (reserves' : stage'.reserves = true)
    (hk : Function.update s.job i job k = .add stage' n ipAddr') : k = i := by
  by_cases same : k = i
  · exact same
  · rw [Function.update_of_ne same] at hk
    exact h.one k i stage' stage ipAddr' ipAddr reserves' reserves hk mine

theorem sole_of_alone (alone : ¬ s.Reserved n) (k : ι) (stage : AddStage) (ipAddr : Text)
    (reserves : stage.reserves = true)
    (hk : Function.update s.job i job k = .add stage n ipAddr) : k = i := by
  by_contra other
  rw [Function.update_of_ne other] at hk
  exact alone ⟨k, stage, ipAddr, reserves, hk⟩

/-- An entry where only the thread that has taken the step may be past the tests. -/
theorem Entry.of_sole {net : Net} {added : Client → List Text}
    (sole : ∀ k stage ipAddr, AddStage.reserves stage = true →
      Function.update s.job i job k = .add stage n ipAddr → k = i)
    (pending : ∀ stage ipAddr, AddStage.reserves stage = true → job = .add stage n ipAddr →
      Pending inet n stage ipAddr net)
    (flag : net.gClientFlag n = used ∨ net.gClientFlag n = unused)
    (opened : net.gClientFlag n = used → net.fds (net.gSockets n) = some (.client n))
    (owner : ∀ d, tracked d → net.fds d = some (.client n) → net.gSockets n = d ∧
      (net.gClientFlag n = used ∨ ∃ stage ipAddr, AddStage.holds stage = true ∧
        job = .add stage n ipAddr))
    (accepted : net.gClientFlag n = used → ∃ ipAddr, added n = [ipAddr] ∧
      net.getClientIpAddr n = some ipAddr ∧ Addressed inet n ipAddr net)
    (removed : net.gClientFlag n = unused → added n = []) :
    Entry inet tracked n ⟨net, Function.update s.job i job, added⟩ := by
  have mine {k : ι} {stage : AddStage} {ipAddr : Text} (reserves : stage.reserves = true)
      (hk : Function.update s.job i job k = .add stage n ipAddr) : job = .add stage n ipAddr := by
    obtain rfl := sole k stage ipAddr reserves hk
    simpa using hk
  constructor
  case flag => exact flag
  case opened => exact opened
  case owner =>
    intro d hd hfd
    obtain ⟨number, reason⟩ := owner d hd hfd
    refine ⟨number, reason.imp id ?_⟩
    rintro ⟨stage, ipAddr, holds, hjob⟩
    exact ⟨i, stage, ipAddr, holds, by simpa using hjob⟩
  case one =>
    intro k l _ _ _ _ hs hs' hk hl
    exact (sole k _ _ hs hk).trans (sole l _ _ hs' hl).symm
  case reserved =>
    intro k stage ipAddr hs hk
    have pending := pending stage ipAddr hs (mine hs hk)
    exact ⟨pending.off, pending.valid⟩
  case held =>
    intro k stage ipAddr hs hk
    have reserves := AddStage.holds_reserves hs
    exact (pending stage ipAddr reserves (mine reserves hk)).held hs
  case addressed =>
    intro k ipAddr hk
    exact (pending .commit ipAddr rfl (mine rfl hk)).addressed rfl
  case added => exact accepted
  case removed => exact removed

/-- The tests are passed. -/
theorem Entry.reserve (h : s.Entry inet tracked n) {ipAddr : Text} (valid : (inet.pton ipAddr).isSome)
    (free : s.net.gClientFlag n ≠ used) (alone : ¬ s.Reserved n) :
    Entry inet tracked n ⟨s.net, Function.update s.job i (.add .socket n ipAddr), s.added⟩ := by
  refine .of_sole (sole_of_alone alone) ?_ h.flag h.opened ?_ h.added h.removed
  · intro stage ipAddr' _ hjob
    cases hjob
    exact ⟨h.flag.resolve_left free, valid, by simp [AddStage.holds], by simp⟩
  · intro d hd hfd
    obtain ⟨-, hused | held⟩ := h.owner d hd hfd
    · exact absurd hused free
    · exact absurd held.reserved alone

/-- `socket` answers with a descriptor, or the run ends. -/
theorem Entry.open (h : s.Entry inet tracked n) {ipAddr : Text}
    (mine : s.job i = .add .socket n ipAddr)
    (answer : Nat → Int) : Entry inet tracked n ⟨s.net.reserve answer n, Function.update s.job i
      (if (s.net.socket answer n).1 = failed then .idle else .add .addr n ipAddr), s.added⟩ := by
  have pending := h.pending mine rfl
  have sole (job : Job) (k : ι) (stage : AddStage) (ipAddr : Text) (reserves : stage.reserves = true)
      (hk : Function.update s.job i job k = .add stage n ipAddr) : k = i :=
    h.sole mine rfl k stage ipAddr reserves hk
  rcases s.net.socket_cases answer n with ⟨d, hd, -, hsock⟩ | hsock
  · simp only [Net.reserve, hsock, hd, ↓reduceIte]
    refine .of_sole (sole _) ?_ (.inr pending.off) (fun hused => absurd hused pending.free) ?_
      (fun hused => absurd hused pending.free) h.removed
    · intro stage ipAddr' _ hjob
      cases hjob
      exact ⟨pending.off, pending.valid, fun _ => by simp, by simp⟩
    · intro e he hfd
      by_cases new : e = d
      · exact ⟨by simp [new], .inr ⟨.addr, ipAddr, rfl, rfl⟩⟩
      · exact absurd (by simpa [new] using hfd) (h.unowned mine he)
  · simp only [Net.reserve, hsock, ↓reduceIte]
    refine .of_sole (sole _) idle_pending (.inr pending.off) (fun hused =>
      absurd hused pending.free) ?_
      (fun hused => absurd hused pending.free) h.removed
    intro e he hfd
    exact absurd hfd (h.unowned mine he)

/-- The socket address is stored. -/
theorem Entry.address (h : s.Entry inet tracked n) {ipAddr : Text}
    (mine : s.job i = .add .addr n ipAddr) :
    Entry inet tracked n ⟨s.net.withSockAddr n ⟨afInet, serverPort, (inet.aton ipAddr).getD 0⟩,
      Function.update s.job i (.add .commit n ipAddr), s.added⟩ := by
  have pending := h.pending mine rfl
  obtain ⟨v, hv⟩ := Option.isSome_iff_exists.mp pending.valid
  refine .of_sole (h.sole mine rfl) ?_ (.inr pending.off) (fun hused => absurd hused pending.free) ?_
    (fun hused => absurd hused pending.free) h.removed
  · intro stage ipAddr' _ hjob
    cases hjob
    refine ⟨pending.off, pending.valid, fun _ => pending.held rfl, fun _ => ⟨v, hv, ?_⟩⟩
    simp [Net.withSockAddr, inet.agree _ v hv]
  · intro e he hfd
    exact ⟨(h.owner e he hfd).1, .inr ⟨.commit, ipAddr, rfl, rfl⟩⟩

/-- The client is made USED. -/
theorem Entry.commit (h : s.Entry inet tracked n) {ipAddr : Text}
    (mine : s.job i = .add .commit n ipAddr) :
    Entry inet tracked n ⟨(s.net.withFlag n used).withText n ipAddr, Function.update s.job i .idle,
      Function.update s.added n (s.added n ++ [ipAddr])⟩ := by
  have pending := h.pending mine rfl
  have flag : ((s.net.withFlag n used).withText n ipAddr).gClientFlag n = used := by
    simp [Net.withFlag, Net.withText]
  refine .of_sole (h.sole mine rfl) idle_pending (.inl flag) (fun _ => pending.held rfl) ?_ ?_ ?_
  · intro e he hfd
    exact ⟨(h.owner e he hfd).1, .inl flag⟩
  · intro _
    refine ⟨ipAddr, by simp [h.removed pending.off], ?_, pending.addressed rfl⟩
    simp [Net.getClientIpAddr, Net.withFlag, Net.withText, cstring_cells_append, cstring]
  · intro off
    exact absurd (off.symm.trans flag) (by decide)

/-- The client is removed. -/
theorem Entry.remove (h : s.Entry inet tracked n) (mine : s.job i = .remove n) (alone : ¬ s.Held n)
    (nonzero : s.net.gClientFlag n = used → tracked error → s.net.gSockets n ≠ error) :
    Entry inet tracked n ⟨s.net.remove n, Function.update s.job i .idle,
      Function.update s.added n []⟩ := by
  obtain ⟨off, -, -⟩ := s.net.remove_self n
  have free : (s.net.remove n).gClientFlag n ≠ used := by simp [off, used, unused]
  have same {k : ι} {stage : AddStage} {ipAddr : Text}
      (hk : Function.update s.job i .idle k = .add stage n ipAddr) :
        s.job k = .add stage n ipAddr := by
    by_cases own : k = i
    · subst own
      simp at hk
    · rwa [Function.update_of_ne own] at hk
  constructor
  case flag => exact .inr off
  case opened | added => exact fun hused => absurd hused free
  case owner =>
    intro e he hfd
    rw [Net.remove_fds] at hfd
    split at hfd
    · rename_i empty
      obtain ⟨number, hused | held⟩ := h.owner e he hfd
      · have zero : e = error := number.symm.trans empty
        exact absurd empty (nonzero hused (zero ▸ he))
      · exact absurd held alone
    · have apart : e ≠ s.net.gSockets n := by
        rintro rfl
        simp at hfd
      rw [Function.update_of_ne apart] at hfd
      exact absurd (h.owner e he hfd).1.symm apart
  case one =>
    intro k l stage stage' ipAddr ipAddr' hs hs' hk hl
    exact h.one k l stage stage' ipAddr ipAddr' hs hs' (same hk) (same hl)
  case reserved =>
    intro k stage ipAddr hs hk
    exact ⟨off, (h.reserved k stage ipAddr hs (same hk)).2⟩
  case held =>
    intro k stage ipAddr hs hk
    exact absurd ⟨k, stage, ipAddr, hs, same hk⟩ alone
  case addressed =>
    intro k ipAddr hk
    exact absurd ⟨k, .commit, ipAddr, rfl, same hk⟩ alone
  case removed => exact fun _ => Function.update_self _ _ _

/-! ### Any step -/

variable {answer : Nat → Int}

/-- What a step of a thread does: its next job, the registry, the runs reported. -/
theorem step_advance (hstep : step inet answer (.advance i) s = .ok s') :
    ∃ job net, (s.job i).step inet answer s.net = .ok (job, net) ∧
      s' = ⟨net, Function.update s.job i job, report (s.job i) s.added⟩ := by
  simp only [step] at hstep
  split at hstep
  · rename_i job net hjob
    exact ⟨job, net, hjob, (Except.ok.inj hstep).symm⟩
  · cases hstep

theorem jobs_away (old : ¬ (s.job i).Adding AddStage.reserves m)
    (new : ¬ job.Adding AddStage.reserves m) (k : ι) (stage : AddStage)
    (ipAddr : Text) (reserves : stage.reserves = true) :
    Function.update s.job i job k = .add stage m ipAddr ↔ s.job k = .add stage m ipAddr := by
  by_cases same : k = i
  · subst same
    rw [Function.update_self]
    constructor
    · intro hjob
      exact absurd ⟨stage, ipAddr, reserves, hjob⟩ new
    · intro hjob
      exact absurd ⟨stage, ipAddr, reserves, hjob⟩ old
  · rw [Function.update_of_ne same]

theorem step_inv {e : SectionEvent ι} (h : s.Inv inet tracked) (careful : Careful inet tracked e s)
    (hstep : step inet answer e s = .ok s') : s'.Inv inet tracked := by
  cases e with
  | take i task =>
    simp only [step] at hstep
    split at hstep
    · rename_i idle
      cases hstep
      have fresh (m : Client) : ¬ task.job.Adding AddStage.reserves m := by
        rintro ⟨stage, ipAddr, reserves, hjob⟩
        cases task <;> cases hjob
        cases reserves
      have old (m : Client) : ¬ (s.job i).Adding AddStage.reserves m := by
        rintro ⟨stage, ipAddr, -, hjob⟩
        cases idle.symm.trans hjob
      intro m
      exact (h m).away ⟨.refl m s.net, rfl, jobs_away (old m) (fresh m)⟩
    · cases hstep
  | advance i =>
    obtain ⟨job, net, hjob, rfl⟩ := step_advance hstep
    intro m
    by_cases own : (s.job i).writes = some m
    · cases mine : s.job i with
      | add stage n ipAddr =>
        rw [mine] at hjob own
        cases stage with
        | check | config => cases own
        | socket =>
          cases own
          cases hjob
          exact (h m).open mine answer
        | addr =>
          cases own
          cases Job.step_addr.symm.trans hjob
          exact (h m).address mine
        | commit =>
          cases own
          obtain ⟨v, hv⟩ := Option.isSome_iff_exists.mp ((h m).pending mine rfl).valid
          have short : ipAddr.length < maxIpLenth := by
            have := inet.short ipAddr v hv
            simp only [maxIpLenth]
            omega
          cases (Job.step_commit short).symm.trans hjob
          exact (h m).commit mine
      | remove n =>
        rw [mine] at hjob own
        cases own
        cases Job.step_remove.symm.trans hjob
        simp only [Careful, mine, Allows] at careful
        exact (h m).remove mine careful.1 careful.2.1
      | idle | delCheck | lookUp | sendto =>
        rw [mine] at own
        cases own
    · by_cases new : job.Adding AddStage.reserves m
      · rcases Job.step_reserves hjob new with before | ⟨ipAddr, mine, rfl, valid, free, rfl⟩
        · exact absurd before own
        · simp only [Careful, mine, Allows] at careful
          rw [mine]
          exact (h m).reserve valid free ((careful valid).resolve_left free)
      · have old : ¬ (s.job i).Adding AddStage.reserves m := fun reserves => own reserves.writes
        exact (h m).away ⟨Job.step_apart hjob own fun n mine => careful.own h own mine,
          report_other own, jobs_away old new⟩

end Steps

/-! ## One socket and one address -/

/-- What the runs of `addClient` for one client come to since its last
removal: one success at most, and after it, with no run under way, one open
socket and the address text and the socket address of that run. -/
structure AddedOnce (inet : Inet) (n : Client) (s : Sections ι) : Prop where
  once : (s.added n).length ≤ 1
  settled : (∀ i stage ipAddr, s.job i ≠ .add stage n ipAddr) → ∀ ipAddr ∈ s.added n,
    (∃! d, s.net.fds d = some (.client n)) ∧ s.net.getClientIpAddr n = some ipAddr ∧
      Addressed inet n ipAddr s.net

theorem Entry.addedOnce (h : s.Entry inet (fun _ => True) n) : AddedOnce inet n s := by
  rcases h.flag with hused | hunused
  · obtain ⟨ipAddr, hadded, text, addr⟩ := h.added hused
    constructor
    · simp [hadded]
    · intro _ ipAddr' mem
      obtain rfl : ipAddr' = ipAddr := by simpa [hadded] using mem
      exact ⟨⟨s.net.gSockets n, h.opened hused, fun d hd => (h.owner d trivial hd).1.symm⟩, text,
        addr⟩
  · have none := h.removed hunused
    exact ⟨by simp [none], fun _ ipAddr mem => by simp [none] at mem⟩

/-! ## Sends -/

/-- The descriptor is the open socket of the client, and the address the one
that is registered for it. -/
structure Live (n : Client) (socketFd : Int) (clientAddr : SockAddr) (net : Net) : Prop where
  flag : net.gClientFlag n = used
  number : net.gSockets n = socketFd
  opened : net.fds socketFd = some (.client n)
  addr : net.clientSockAddr n = clientAddr

theorem Live.same {socketFd : Int} {clientAddr : SockAddr} {net net' : Net}
    (h : Live n socketFd clientAddr net) (apart : Apart n net net') :
    Live n socketFd clientAddr net' where
  flag := apart.entry.flag.trans h.flag
  number := apart.entry.socket.trans h.number
  opened := (apart.fds socketFd).mpr h.opened
  addr := apart.entry.addr.trans h.addr

def SendsLive (s : Sections ι) : Prop := ∀ i n socketFd clientAddr,
  s.job i = .sendto n socketFd clientAddr → Live n socketFd clientAddr s.net

/-- A removal waits while a thread has looked the client up and not sent yet. -/
def Waits : SectionEvent ι → Sections ι → Prop
  | .take _ _, _ => True
  | .advance i, s => ∀ j n, s.job i = .remove n → (s.job j).sends ≠ some n

instance [Fintype ι] : ∀ (e : SectionEvent ι) (s : Sections ι), Decidable (Waits e s)
  | .take _ _, _ => .isTrue trivial
  | .advance i, s =>
    inferInstanceAs (Decidable (∀ j n, s.job i = .remove n → (s.job j).sends ≠ some n))

theorem step_sendsLive [DecidableEq ι] {answer : Nat → Int} {e : SectionEvent ι}
    (h : s.Inv inet tracked) (live : s.SendsLive) (careful : Careful inet tracked e s)
    (waits : Waits e s) (hstep : step inet answer e s = .ok s') : s'.SendsLive := by
  intro j n socketFd clientAddr hj
  cases e with
  | take i task =>
    simp only [step] at hstep
    split at hstep
    · cases hstep
      by_cases own : j = i
      · subst own
        cases task <;> simp [Task.job] at hj
      · exact live j n socketFd clientAddr (by simpa [own] using hj)
    · cases hstep
  | advance i =>
    obtain ⟨job, net, hjob, rfl⟩ := step_advance hstep
    by_cases own : j = i
    · subst own
      simp only [Function.update_self] at hj
      subst hj
      obtain ⟨registered, number, addr, rfl⟩ := Job.step_sends hjob
      have flag := (h n).flag.resolve_right registered
      exact ⟨flag, number, number ▸ (h n).opened flag, addr⟩
    · have hold : s.job j = .sendto n socketFd clientAddr := by simpa [own] using hj
      have before := live j n socketFd clientAddr hold
      by_cases writes : (s.job i).writes = some n
      · cases mine : s.job i with
        | add stage m ipAddr =>
          rw [mine] at writes
          cases stage with
          | check | config => cases writes
          | socket | addr | commit =>
            cases writes
            exact absurd before.flag ((h n).pending mine rfl).free
        | remove m =>
          rw [mine] at writes
          cases writes
          exact absurd (by rw [hold]; rfl) (waits j n mine)
        | idle | delCheck | lookUp | sendto =>
          rw [mine] at writes
          cases writes
      · exact before.same (Job.step_apart hjob writes fun m mine => careful.own h writes mine)

section Runs

variable [DecidableEq ι] (inet : Inet) (answer : Nat → Int) (opened : Int → Bool)

/-- The run from an empty registry. -/
def reach (run : List (SectionEvent ι)) : Except Fault (Sections ι) :=
  runAll (step inet answer) run (idle (.empty (processFds opened)))

/-- Every step of the run meets the condition. -/
def Meets (C : SectionEvent ι → Sections ι → Prop) (run : List (SectionEvent ι)) : Prop :=
  Along (step inet answer) C run (idle (.empty (processFds opened)))

/-- In a run whose steps are careful, the runs of `addClient` for a client
make one socket and one address. -/
theorem added_once (run : List (SectionEvent ι)) {s : Sections ι}
    (careful : Meets inet answer opened (Careful inet fun _ => True) run)
    (reached : reach inet answer opened run = .ok s) (n : Client) : AddedOnce inet n s := by
  have inv : s.Inv inet fun _ => True :=
    Along.invariant (Inv inet fun _ => True) (fun _ _ _ inv careful h => step_inv inv careful h)
      (idle_inv opened) careful reached
  exact (inv n).addedOnce

/-- In a run whose steps are careful, and whose removals wait for the sends
they would disturb, every message is sent on the open socket of its client. -/
theorem sends_live (run : List (SectionEvent ι)) {s : Sections ι}
    (careful : Meets inet answer opened (fun e s => Careful inet (· ≠ error) e s ∧ Waits e s) run)
    (reached : reach inet answer opened run = .ok s) : s.SendsLive := by
  have both : s.Inv inet (· ≠ error) ∧ s.SendsLive := by
    refine Along.invariant (fun s => s.Inv inet (· ≠ error) ∧ s.SendsLive) ?_
      ⟨idle_inv opened, ?_⟩ careful reached
    · rintro e s s' ⟨inv, live⟩ ⟨careful, waits⟩ hstep
      exact ⟨step_inv inv careful hstep, step_sendsLive inv live careful waits hstep⟩
    · rintro i n socketFd clientAddr hjob
      cases hjob
  exact both.2

end Runs

/-! ### Two threads -/

def firstClient : Client := ⟨2, by decide⟩

def secondClient : Client := ⟨3, by decide⟩

def firstAddr : Text := "192.168.10.1".toList

def secondAddr : Text := "192.168.10.2".toList

def fromThree (calls : Nat) : Int := calls + 3

/-- A host whose `socket` calls answer 3, 4, 5 and so on. -/
def sampleReach (run : List (SectionEvent Bool)) : Except Fault (Sections Bool) :=
  reach .strict fromThree (fun d => d ≤ 2) run

/-- The second run tests the flag before the first one succeeds. -/
def addsInTurn : List (SectionEvent Bool) :=
  [.take false (.add firstClient firstAddr), .advance false,
    .take true (.add firstClient secondAddr), .advance true,
    .advance false, .advance false, .advance false, .advance false, .advance true]

theorem addsInTurn_once : ∃ s, sampleReach addsInTurn = .ok s ∧ AddedOnce .strict firstClient s := by
  have careful : Meets .strict fromThree (fun d => d ≤ 2) (Careful .strict fun _ => True)
      addsInTurn := by
    unfold Meets
    decide +kernel
  have defined : (sampleReach addsInTurn).toOption.isSome = true := by decide +kernel
  cases reached : sampleReach addsInTurn with
  | error f =>
    rw [reached] at defined
    cases defined
  | ok s => exact ⟨s, rfl, added_once .strict fromThree _ addsInTurn careful reached firstClient⟩

/-- Both runs are in `network_config` before either makes the client USED. -/
def addsAtOnce : List (SectionEvent Bool) :=
  [.take false (.add firstClient firstAddr), .take true (.add firstClient secondAddr),
    .advance false, .advance true,
    .advance false, .advance false, .advance false, .advance true, .advance true, .advance true,
    .advance false, .advance true]

theorem addsAtOnce_twice : ¬ ∀ s, sampleReach addsAtOnce = .ok s →
    AddedOnce .strict firstClient s := by
  intro once
  have found : (sampleReach addsAtOnce).toOption.map (fun s => s.added firstClient) =
      some [firstAddr, secondAddr] := by decide +kernel
  cases reached : sampleReach addsAtOnce with
  | error f => simp [reached, Except.toOption] at found
  | ok s =>
    simp only [reached, Except.toOption, Option.map_some, Option.some.injEq] at found
    have := (once s reached).once
    simp [found] at this

/-- The first thread adds a client and removes it after the other has sent. -/
def sendFirst : List (SectionEvent Bool) :=
  [.take false (.add firstClient firstAddr), .advance false, .advance false,
    .advance false, .advance false, .advance false, .take true (.message firstClient), .advance true,
      .take false (.del firstClient), .advance false,
    .advance true, .advance false]

theorem sendFirst_live : ∃ s, sampleReach sendFirst = .ok s ∧ s.SendsLive := by
  have careful : Meets .strict fromThree (fun d => d ≤ 2)
      (fun e s => Careful .strict (· ≠ error) e s ∧ Waits e s) sendFirst := by
    unfold Meets
    decide +kernel
  have defined : (sampleReach sendFirst).toOption.isSome = true := by decide +kernel
  cases reached : sampleReach sendFirst with
  | error f =>
    rw [reached] at defined
    cases defined
  | ok s => exact ⟨s, rfl, sends_live .strict fromThree _ sendFirst careful reached⟩

/-- The client is removed after the look-up, and its descriptor is given to
the next client. -/
def removeFirst : List (SectionEvent Bool) :=
  [.take false (.add firstClient firstAddr), .advance false, .advance false,
    .advance false, .advance false, .advance false, .take true (.message firstClient), .advance true,
      .take false (.del firstClient), .advance false,
    .advance false, .take false (.add secondClient secondAddr), .advance false,
      .advance false, .advance false,
    .advance false, .advance false]

theorem removeFirst_misdirects :
    ¬ ∀ s : Sections Bool, reach .strict (fun _ => 3) (fun d => d ≤ 2) removeFirst = .ok s →
      s.SendsLive := by
  intro live
  have found : (reach .strict (fun _ => 3) (fun d => d ≤ 2) removeFirst).toOption.map
      (fun s => (s.job true, s.net.fds 3)) =
        some (.sendto firstClient 3 ⟨afInet, serverPort, 3232238081⟩,
          some (.client secondClient)) := by decide +kernel
  cases reached : reach .strict (fun _ => 3) (fun d => d ≤ 2) removeFirst with
  | error f => simp [reached, Except.toOption] at found
  | ok s =>
    simp only [reached, Except.toOption, Option.map_some, Option.some.injEq, Prod.mk.injEq] at found
    have opened := (live s reached true firstClient 3 _ found.1).opened
    simp [found.2, secondClient, firstClient] at opened

end Sections

end AutoTest
