import AutoTest.Delivery
import AutoTest.Directory
import AutoTest.Gates
import AutoTest.QueueHop

/-!
# What the sender gets done

The sender takes messages from the queue one by one. What it takes was built
by a handler, and how fast it goes depends on its own steps alone.

* `Process.queued_sound`: every message queued in a run is for a client of the
  table, and its texts fit their fields.
* `Process.sender_steps`: so no look-up of the sender fails.
* `Process.sender_delivers`: while it lives, what waits leaves in order within
  seven of its steps for each message.
-/

namespace AutoTest

open CString Program Cmd

/-! ## Messages -/

/-- An operation that reads and leaves everything as it is. -/
def Op.looks : Op → Bool
  | .paramNum => true
  | .param _ => true
  | .getSendThreadID => true
  | .getSysLogPortNum => true
  | _ => false

/-- The handlers that queue nothing. -/
theorem Func.run_silent {f : Func} (queues : f.queues = false) (cmdNum : Nat) :
    (f.run cmdNum).Only fun o : Op => ∀ m, o ≠ .msgsnd m := by
  apply Prog.Only.mono _ (f.run_usual cmdNum)
  rintro o usual m rfl
  exact absurd (queues.symm.trans usual) (by decide)

theorem Func.run_fitting {f : Func} (queues : f.queues = true) (cmdNum : Nat) :
    (f.run cmdNum).Only Op.SendsFitting := by
  cases f with
  | ioevt => exact ioevt_fitting cmdNum
  | call => exact call_fitting cmdNum
  | syslogConf => exact syslogConf_fitting cmdNum
  | hideFeatureProc => exact hideFeatureProc_fitting cmdNum
  | _ => cases queues

namespace Process

variable {host : Host} {self : Option Tid} {line : Text} {s t : Process}

theorem operate_looks {o : Op} (looks : o.looks = true) {r : o.Res}
    (h : operate host self line o s = .ok (r, t)) :
    t = s := by
  cases o with
  | param i => exact (operate_param h).2
  | paramNum => exact (operate_paramNum h).2
  | getSendThreadID => exact (operate_getSendThreadID h).2
  | getSysLogPortNum =>
    cases h
    rfl
  | _ => cases looks

/-- What holds of every message that was queued. -/
def Accepts (P : MsgQ → Prop) (s : Process) : Prop := ∀ m ∈ s.accepted, P m

theorem operate_accepted {o : Op} {r : o.Res} (h : operate host self line o s = .ok (r, t)) :
    t.accepted = s.accepted ∨ ∃ m, o = .msgsnd m ∧ t.accepted = s.accepted ++ [m] := by
  cases o with
  | pthreadKill id =>
    obtain rfl := operate_kill h
    exact .inl rfl
  | pthreadJoin id =>
    obtain ⟨-, rfl⟩ := operate_join h
    exact .inl rfl
  | pthreadCreate routine => rcases operate_create h with ⟨-, rfl⟩ |
    ⟨id, -, -, -, rfl⟩ <;> exact .inl rfl
  | msgsnd m =>
    obtain ⟨w, -, rfl⟩ := operate_msgsnd h
    by_cases full : r = failed
    · exact .inl (if_pos full)
    · exact .inr ⟨m, rfl, if_neg full⟩
  | _ =>
    obtain ⟨w, -, rfl⟩ := operate_still rfl h
    exact .inl rfl

section Accepts

variable {P : MsgQ → Prop}

theorem operate_accepts {o : Op} {r : o.Res} (accepts : s.Accepts P)
    (sends : ∀ m, o = .msgsnd m → P m)
    (h : operate host self line o s = .ok (r, t)) : t.Accepts P := by
  intro m hm
  rcases operate_accepted h with same | ⟨queued, rfl, more⟩
  · exact accepts m (same ▸ hm)
  · rw [more, List.mem_append, List.mem_singleton] at hm
    rcases hm with old | rfl
    · exact accepts m old
    · exact sends m rfl

theorem ended_accepts {o : Op} {e : Halt} (accepts : s.Accepts P)
    (h : operate host self line o s = .error e) : e.Safe (Accepts P) :=
  fails_safe (fun _ _ _ => accepts) h

/-- A handler whose messages meet `P`, whatever it reads. -/
theorem only_accepts {p : Cmd Unit} (only : p.Only fun o : Op => ∀ m, o = .msgsnd m → P m)
    (accepts : s.Accepts P) :
    p.Leads (operate host self line) (Halt.Safe (Accepts P)) (fun _ => Accepts P) s :=
  only.leads (fun _ _ _ _ sends accepts h => operate_accepts accepts sends h)
    (fun _ _ _ _ accepts h => ended_accepts accepts h) accepts

theorem say_accepts (text : String) (accepts : s.Accepts P) :
    (say text).Leads (operate host self line) (Halt.Safe (Accepts P)) (fun _ => Accepts P) s :=
  only_accepts ⟨fun _ same => (by cases same), fun _ => trivial⟩ accepts

theorem wrongParameter_accepts (cmdNum : Nat) (accepts : s.Accepts P) :
    (wrongParameter cmdNum).Leads (operate host self line) (Halt.Safe (Accepts P))
      (fun _ => Accepts P) s :=
  only_accepts ⟨fun _ same => (by cases same), fun _ => ⟨fun _ same => (by cases same), fun _ =>
    trivial⟩⟩ accepts

theorem msgsndOrSay_accepts {m : MsgQ} (sound : P m) (failure : String) (accepts : s.Accepts P) :
    (msgsndOrSay m failure).Leads (operate host self line) (Halt.Safe (Accepts P))
      (fun _ => Accepts P) s := by
  apply only_accepts _ accepts
  refine ⟨fun queued same => ?_, fun _ => .ite (fun _ => ⟨fun _ same => ?_, fun _ => trivial⟩)
    fun _ => trivial⟩
  · obtain rfl : m = queued := by simpa using same
    exact sound
  · cases same

theorem look_accepts {o : Op} {f : o.Res → Cmd Unit} (accepts : s.Accepts P) (looks : o.looks = true)
    (next : ∀ r, operate host self line o s = .ok (r, s) →
      (f r).Leads (operate host self line) (Halt.Safe (Accepts P)) (fun _ => Accepts P) s) :
    (Prog.op o .pure >>= f).Leads (operate host self line) (Halt.Safe (Accepts P))
      (fun _ => Accepts P) s := by
  apply Prog.Leads.bind_op
  · intro r t h
    obtain rfl := operate_looks looks h
    exact next r h
  · exact fun _ h => ended_accepts accepts h

end Accepts

/-! ### The number of the client -/

section Client

theorem cmdCode_leads {I : Process → Prop} {cmdNum : Nat} {typed : Text} {f : Text → Cmd Unit}
    (next : ∀ code, (f code).Leads (operate host self line) (Halt.Safe I) (fun _ => I) s) :
    (cmdCode cmdNum typed >>= f).Leads (operate host self line) (Halt.Safe I) (fun _ => I) s := by
  unfold cmdCode
  split
  · exact snprintf_leads next
  · exact snprintf_leads next

abbrev KeepsClients (host : Host) (self : Option Tid) (line : Text) (p : Cmd Unit)
    (s : Process) : Prop :=
  p.Leads (operate host self line) (Halt.Safe (Accepts fun m => Inside m.clientNum))
    (fun _ => Accepts fun m => Inside m.clientNum) s

variable (accepts : s.Accepts fun m => Inside m.clientNum)
include accepts

/-- The tests that the handlers share. -/
theorem accepted_clients {f : Text → Cmd Unit}
    (next : ∀ token, s.world.params.param 1 = .ok token → Inside (atoi token) →
      KeepsClients host self line (f token) s) :
    KeepsClients host self line (do
      let token ← param 1
      if atoi token > maxClient - 1 ∨ atoi token < minClient then validClients
      else if (← getSendThreadID) = 0 then say "please start test mode first!\n"
      else f token) s := by
  apply look_accepts accepts rfl
  intro token read
  apply Prog.Leads.ite
  · exact fun _ => say_accepts _ accepts
  · intro inside
    apply look_accepts accepts rfl
    intro sendId _
    apply Prog.Leads.ite
    · exact fun _ => say_accepts _ accepts
    · exact fun _ => next token (operate_param read).1 ⟨by omega, by omega⟩

/-- The number is read from the token array once more. -/
theorem again_clients {token : Text} {f : Text → Cmd Unit}
    (first : s.world.params.param 1 = .ok token) (next : KeepsClients host self line (f token) s) :
    KeepsClients host self line (param 1 >>= f) s := by
  apply look_accepts accepts rfl
  intro again read
  obtain rfl : token = again := Except.ok.inj (first.symm.trans (operate_param read).1)
  exact next

theorem ioevt_clients (cmdNum : Nat) : KeepsClients host self line (ioevt cmdNum) s := by
  unfold ioevt
  apply look_accepts accepts rfl
  intro gParamNum _
  apply Prog.Leads.ite (fun _ => wrongParameter_accepts cmdNum accepts)
  intro three
  apply look_accepts accepts rfl
  intro action _
  apply Prog.Leads.ite (fun _ => wrongParameter_accepts cmdNum accepts)
  intro known
  apply accepted_clients accepts
  intro token first inside
  apply look_accepts accepts rfl
  intro typed _
  apply cmdCode_leads
  intro code
  apply again_clients accepts first
  apply Prog.Leads.ite
  · exact fun _ => accepts
  intro _
  apply look_accepts accepts rfl
  intro third _
  apply snprintf_leads
  intro act
  apply look_accepts accepts rfl
  intro second _
  apply snprintf_leads
  intro keys
  apply Prog.Leads.bind_op
  · intro ioevtParam u hcut
    -- the tokens of the line are gone, but the number is not read again
    have accepts := operate_accepts accepts (fun _ same => by cases same) hcut
    apply Prog.Leads.ite
    · exact fun _ => trivial
    · intro few
      cases keyCodes ioevtParam with
      | error k => exact only_accepts ⟨fun _ same => (by cases same), fun _ => trivial⟩ accepts
      | ok codes => exact msgsndOrSay_accepts inside _ accepts
  · exact fun _ h => ended_accepts accepts h

theorem call_clients (cmdNum : Nat) : KeepsClients host self line (AutoTest.call cmdNum) s := by
  unfold AutoTest.call
  apply look_accepts accepts rfl
  intro gParamNum _
  apply Prog.Leads.ite (fun _ => wrongParameter_accepts cmdNum accepts)
  intro two
  apply accepted_clients accepts
  intro token first inside
  apply look_accepts accepts rfl
  intro typed _
  apply snprintf_leads
  intro code
  apply look_accepts accepts rfl
  intro second _
  apply snprintf_leads
  intro shared
  exact msgsndOrSay_accepts inside _ accepts

theorem syslogConf_clients (cmdNum : Nat) : KeepsClients host self line (syslogConf cmdNum) s := by
  unfold syslogConf
  apply look_accepts accepts rfl
  intro gParamNum _
  apply Prog.Leads.ite (fun _ => wrongParameter_accepts cmdNum accepts)
  intro enough
  apply accepted_clients accepts
  intro token first inside
  apply look_accepts accepts rfl
  intro typed _
  apply cmdCode_leads
  intro code
  apply again_clients accepts first
  apply Prog.Leads.ite
  · intro three
    apply look_accepts accepts rfl
    intro text _
    apply look_accepts accepts rfl
    intro more _
    apply look_accepts accepts rfl
    intro port _
    exact msgsndOrSay_accepts inside _ accepts
  · intro other
    apply look_accepts accepts rfl
    intro text _
    apply look_accepts accepts rfl
    intro port _
    exact msgsndOrSay_accepts inside _ accepts

theorem hideFeatureProc_clients (cmdNum : Nat) :
    KeepsClients host self line (hideFeatureProc cmdNum) s := by
  unfold hideFeatureProc
  apply look_accepts accepts rfl
  intro gParamNum _
  apply Prog.Leads.ite (fun _ => wrongParameter_accepts cmdNum accepts)
  intro enough
  apply accepted_clients accepts
  intro token first inside
  apply look_accepts accepts rfl
  intro typed _
  apply cmdCode_leads
  intro code
  apply again_clients accepts first
  apply look_accepts accepts rfl
  intro text _
  exact msgsndOrSay_accepts inside _ accepts

end Client

/-! ### Every run -/

/-- What the four handlers keep that queue messages, a line keeps. -/
theorem handle_accepts {P : MsgQ → Prop} (messages : ∀ f : Func, f.queues = true →
    ∀ cmdNum (u : Process),
      u.Accepts P → (f.run cmdNum).Leads (operate host self line) (Halt.Safe (Accepts P))
        (fun _ => Accepts P) u)
    (accepts : s.Accepts P) (h : s.handle host self line = .ok t) : t.Accepts P := by
  obtain ⟨p, name, -, -, h⟩ := handle_dispatch h
  have start : Accepts P { s with world := { s.world with params := p } } := accepts
  apply settle_leads _ h
  unfold dispatch
  cases getCmdCode name with
  | none => exact say_accepts _ start
  | some cmdNum =>
    dsimp only
    cases queues : (cmdEntry cmdNum).func.queues with
    | true => exact messages _ queues cmdNum _ start
    | false => exact only_accepts ((Func.run_silent queues cmdNum).mono fun _ ho m same =>
      absurd same (ho m)) start

theorem step_accepts {P : MsgQ → Prop} {e : ProcessEvent}
    (lines : ∀ self line (u v : Process), u.Accepts P → u.handle host self line = .ok v → v.Accepts P)
    (accepts : s.Accepts P) (h : s.step host e = .ok t) : t.Accepts P := by
  cases e with
  | line self line =>
    simp only [step] at h
    split at h
    · exact lines self line s t accepts h
    · cases h
  | log id text =>
    simp only [step] at h
    split at h
    · refine settle_leads (only_accepts ((syslogProcess_still text).mono ?_) accepts) h
      rintro o still m rfl
      cases still
    · cases h
  | advance id =>
    simp only [step] at h
    cases hthread : s.thread id with
    | none => simp [hthread] at h
    | some thread =>
      cases thread with
      | receive => simp [hthread] at h
      | send stage =>
        simp only [hthread, advanceSend] at h
        split at h
        · cases h
          exact accepts
        · cases h
      | script w =>
        simp only [hthread] at h
        rcases advanceScript_cases h with rfl | ⟨line, k, -, h⟩ | ⟨o, k, r, world, -, -, rfl⟩
        · exact accepts
        · exact lines (some id) line
            (s.setThread id (some (.script { w with rest := k () }))) t accepts h
        · exact accepts

theorem step_clients {e : ProcessEvent} (accepts : s.Accepts fun m => Inside m.clientNum)
    (h : s.step host e = .ok t) : t.Accepts fun m => Inside m.clientNum := by
  apply step_accepts _ accepts h
  intro self line u v accepts hline
  apply handle_accepts _ accepts hline
  intro f queues cmdNum u accepts
  cases f with
  | ioevt => exact ioevt_clients accepts cmdNum
  | call => exact call_clients accepts cmdNum
  | syslogConf => exact syslogConf_clients accepts cmdNum
  | hideFeatureProc => exact hideFeatureProc_clients accepts cmdNum
  | _ => cases queues

theorem step_fitting {e : ProcessEvent} (accepts : s.Accepts MsgQ.Fits) (h : s.step host e = .ok t) :
    t.Accepts MsgQ.Fits := by
  apply step_accepts _ accepts h
  intro self line u v accepts hline
  apply handle_accepts _ accepts hline
  intro f queues cmdNum u accepts
  apply only_accepts _ accepts
  apply (Func.run_fitting queues cmdNum).mono
  rintro o fitting m rfl
  exact fitting

/-- Whoever passes the lines, each message queued is for a client of the table,
and its texts end within their fields. -/
theorem queued_sound (host : Host) (opened : Int → Bool) (run : List ProcessEvent) (s : Process)
    (reached : runAll (step host) run (fresh opened) = .ok s) :
    ∀ m ∈ s.accepted, Inside m.clientNum ∧ m.Fits := by
  have none' (P : MsgQ → Prop) : (fresh opened).Accepts P := by
    intro m hm
    cases hm
  intro m hm
  have clients := runAll_keeps (fun _ _ _ accepts h => step_clients accepts h) (none' _) reached
  have fits := runAll_keeps (fun _ _ _ accepts h => step_fitting accepts h) (none' _) reached
  exact ⟨clients m hm, fits m hm⟩

/-! ## The sender -/

theorem fresh_sendInv (opened : Int → Bool) : (fresh opened).SendInv := idle_sendInv _

theorem SendInv.holds (inv : s.SendInv) {id : Tid} {stage : Sender}
    (lives : s.thread id = some (.send stage)) : s.held = stage.held := by
  simp only [Process.held, ← (inv.sender id stage lives).2.1, Process.heldBy, lives]

/-- The sender goes on wherever it does not wait for `gMutex`. -/
theorem sender_steps (host : Host) (opened : Int → Bool) (run : List ProcessEvent) (s : Process)
    (reached : runAll (step host) run (fresh opened) = .ok s) (id : Tid) (stage : Sender)
    (lives : s.thread id = some (.send stage)) (going : stage.waits = false) :
    ∃ t, s.step host (.advance id) = .ok t := by
  have inv := runAll_keeps (fun _ _ _ inv h => step_sendInv inv h) (fresh_sendInv opened) reached
  have sound := queued_sound host opened run s reached
  have place : s.accepted = s.disposed.map Prod.fst ++ (s.held ++ s.world.shared.queue) := inv.place
  have inside (m : MsgQ) (hm : m ∈ stage.held) : Inside m.clientNum := by
    apply (sound m _).1
    rw [place, inv.holds lives]
    simp [hm]
  have moves : ∃ next, stage.step s.world.shared = .ok next := by
    cases stage with
    | getClientSockAddr m socketFd =>
      obtain ⟨n, number⟩ := inside_iff.mp (inside m (by simp [Sender.held]))
      simp [Sender.step, number, Net.getClientSockAddr]
    | msgrcv =>
      simp only [Sender.step]
      split
      · exact ⟨_, rfl⟩
      · split <;> exact ⟨_, rfl⟩
    | unlock m socketFd clientAddr useFlag =>
      simp only [Sender.step]
      split <;> exact ⟨_, rfl⟩
    | lock m => cases going
    | _ => exact ⟨_, rfl⟩
  obtain ⟨next, hstep⟩ := moves
  simp only [step, lives, advanceSend, hstep]
  exact ⟨_, rfl⟩

end Process

/-- How many steps the sender has taken since it last came to `msgrcv`. -/
def Sender.done : Sender → Nat
  | .signal => 0
  | .msgrcv => 1
  | .lock _ => 2
  | .getSocket _ => 3
  | .getClientSockAddr _ _ => 4
  | .getClientFlag _ _ _ => 5
  | .unlock _ _ _ _ => 6
  | .sendto _ _ _ => 7

theorem Sender.done_le (stage : Sender) : stage.done ≤ 7 := by
  cases stage <;> simp [done]

/-- A step with a message at hand comes closer to its end, and loses none. -/
theorem Sender.step_done {stage next : Sender} {s s' : Shared} {gone : List (MsgQ × Fate)}
    (pending : stage.held ++ s.queue ≠ []) (queued : s.gMsgid ≠ failed)
    (h : stage.step s = .ok (next, s', gone)) :
    stage.done < 7 * gone.length + next.done ∧ ∀ p ∈ gone, p.2 ≠ .lost := by
  cases stage with
  | msgrcv =>
    cases hqueue : s.queue with
    | nil => simp [held, hqueue] at pending
    | cons m queue =>
      simp only [step, queued, hqueue, ↓reduceIte, Except.ok.injEq, Prod.mk.injEq] at h
      obtain ⟨rfl, -, rfl⟩ := h
      simp [done]
  | getClientSockAddr m socketFd =>
    simp only [step] at h
    split at h
    · cases h
      simp [done]
    · cases h
  | unlock m socketFd clientAddr useFlag =>
    simp only [step] at h
    split at h
    · cases h
      simp [done]
    · cases h
      simp [done]
  | _ =>
    cases h
    simp [done]

namespace Process

variable {host : Host} {self : Option Tid} {line : Text} {s t u : Process}

/-! ### Steps of others -/

/-- What is queued comes last, and what has left the sender stays as it is. -/
def Grows (s t : Process) : Prop := ∃ new gone, t.accepted = s.accepted ++ new ∧
  t.world.shared.queue = s.world.shared.queue ++ new ∧ t.disposed = s.disposed ++ gone

theorem Grows.refl (s : Process) : s.Grows s := ⟨[], [], by simp⟩

theorem Grows.trans (h : s.Grows t) (h' : t.Grows u) : s.Grows u := by
  obtain ⟨new, gone, accepted, queue, disposed⟩ := h
  obtain ⟨new', gone', accepted', queue', disposed'⟩ := h'
  exact ⟨new ++ new', gone ++ gone', by simp [accepted', accepted], by simp [queue', queue],
    by simp [disposed', disposed]⟩

theorem endThread_grows (id : Tid) (s : Process) : s.Grows (s.endThread id) :=
  ⟨[], _, by simp [Process.endThread, setThread], by simp [Process.endThread, setThread], rfl⟩

theorem operate_grows {o : Op} {r : o.Res} (h : operate host self line o s = .ok (r, t)) :
    s.Grows t := by
  cases o with
  | pthreadKill id =>
    obtain rfl := operate_kill h
    exact .refl t
  | pthreadJoin id =>
    obtain ⟨-, rfl⟩ := operate_join h
    exact ⟨[], _, by simp [Process.endThread, setThread, setShared],
      by simp [Process.endThread, setThread, setShared], rfl⟩
  | pthreadCreate routine =>
    rcases operate_create h with ⟨-, rfl⟩ | ⟨id, -, -, -, rfl⟩ <;>
      exact ⟨[], [], by simp [setThread, setShared, Shared.asked]⟩
  | msgsnd m =>
    obtain ⟨w, hstep, rfl⟩ := operate_msgsnd h
    simp only [interp, sharedStep] at hstep
    split at hstep
    · rename_i hshared
      split at hshared
      · cases hshared
        cases hstep
        exact ⟨[m], [], by simp [failed]⟩
      · cases hshared
        cases hstep
        exact ⟨[], [], by simp [Shared.asked]⟩
    · cases hstep
  | _ =>
    obtain ⟨w, hstep, rfl⟩ := operate_still rfl h
    have queue : w.shared.queue = s.world.shared.queue :=
      interp_frame (p := .queue) (by simp [Op.writes]) hstep
    exact ⟨[], [], by simp [queue]⟩

theorem only_grows {P : Op → Prop} {p : Cmd Unit} (only : p.Only P)
    (h : settle (p.run (operate host self line) s) = .ok t) : s.Grows t := by
  refine settle_leads (only.leads ?_ ?_ (.refl s)) h
  · exact fun o u r v _ grows hop => grows.trans (operate_grows hop)
  · rintro o u e - grows hop
    exact fails_safe (fun id _ _ => grows.trans (endThread_grows id u)) hop

/-- The sender is as it was, or there is none. -/
def SameSender (id : Tid) (stage : Sender) (s : Process) : Prop :=
  s.thread id = some (.send stage) ∨ ∀ other, s.thread id ≠ some (.send other)

theorem SameSender.endThread {id : Tid} {stage : Sender} (same : s.SameSender id stage) (i : Tid) :
    (s.endThread i).SameSender id stage := by
  by_cases own : id = i
  · exact .inr fun other h => by simp [Process.endThread, setThread, own] at h
  · simpa [SameSender, Process.endThread, setThread, own] using same

theorem SameSender.setThread {id i : Tid} {stage : Sender} {w : Worker}
    (same : s.SameSender id stage) : (s.setThread i (some (.script w))).SameSender id stage := by
  by_cases own : id = i
  · exact .inr fun other h => by simp [Process.setThread, own] at h
  · simpa [SameSender, Process.setThread, own] using same

/-- Only `start` creates a sender. -/
theorem operate_sameSender {o : Op} {r : o.Res} {f : Func} {id : Tid} {stage : Sender}
    (usual : o.Usual f) (other : f ≠ .start) (same : s.SameSender id stage)
    (h : operate host self line o s = .ok (r, t)) :
    t.SameSender id stage := by
  cases o with
  | pthreadKill i =>
    obtain rfl := operate_kill h
    exact same
  | pthreadJoin i =>
    obtain ⟨-, rfl⟩ := operate_join h
    exact SameSender.endThread (s := s.setShared _) same i
  | pthreadCreate routine =>
    rcases operate_create h with ⟨-, rfl⟩ | ⟨i, -, -, -, rfl⟩
    · exact same
    · cases routine with
      | scriptCmdProcess => exact SameSender.setThread (s := s.setShared _) same
      | cmdSend | retReceive => exact absurd usual other
  | msgsnd m =>
    obtain ⟨w, -, rfl⟩ := operate_msgsnd h
    exact same
  | _ =>
    obtain ⟨w, -, rfl⟩ := operate_still rfl h
    exact same

/-- `start` ends no thread, and a new one takes the number of none. -/
theorem operate_keepsSender {o : Op} {r : o.Res} {id : Tid} {stage : Sender} (usual : o.Usual .start)
    (lives : s.thread id = some (.send stage) ∧ s.world.shared.joinable id = true)
    (h : operate host self line o s = .ok (r, t)) :
    t.thread id = some (.send stage) ∧ t.world.shared.joinable id = true := by
  cases o with
  | pthreadKill i | pthreadJoin i => cases usual
  | pthreadCreate routine =>
    rcases operate_create h with ⟨-, rfl⟩ | ⟨i, -, fresh, -, rfl⟩
    · exact lives
    · have apart : id ≠ i := by
        rintro rfl
        simp [lives.2] at fresh
      simpa [setThread, setShared, Shared.asked, apart] using lives
  | msgsnd m =>
    obtain ⟨w, hstep, rfl⟩ := operate_msgsnd h
    have joinable : w.shared.joinable = _ := interp_frame (p := .joinable) (by simp [Op.writes]) hstep
    exact ⟨lives.1, joinable ▸ lives.2⟩
  | _ =>
    obtain ⟨w, hstep, rfl⟩ := operate_still rfl h
    have joinable : w.shared.joinable = _ := interp_frame (p := .joinable) (by simp [Op.writes]) hstep
    exact ⟨lives.1, joinable ▸ lives.2⟩

theorem only_sameSender {p : Cmd Unit} {f : Func} {id : Tid} {stage : Sender} (usual : p.Usual f)
    (other : f ≠ .start) (same : s.SameSender id stage)
    (h : settle (p.run (operate host self line) s) = .ok t) : t.SameSender id stage := by
  refine settle_leads (usual.leads ?_ ?_ same) h
  · exact fun o u r v usual same hop => operate_sameSender usual other same hop
  · rintro o u e - same hop
    exact fails_safe (fun i _ _ => same.endThread i) hop

theorem handle_sender {id : Tid} {stage : Sender} (inv : s.SendInv)
    (lives : s.thread id = some (.send stage))
    (h : s.handle host self line = .ok t) : s.Grows t ∧ t.SameSender id stage := by
  have joinable := (inv.sender id stage lives).2.2
  obtain ⟨p, name, -, -, h⟩ := handle_dispatch h
  generalize hs' : ({ s with world := { s.world with params := p }, last := some line } : Process) =
    s' at h
  have lives' : s'.thread id = some (.send stage) ∧ s'.world.shared.joinable id = true := by
    subst hs'
    exact ⟨lives, joinable⟩
  have loaded : s.Grows s' := by
    subst hs'
    exact .refl s
  unfold dispatch at h
  cases code : getCmdCode name with
  | none =>
    simp only [code] at h
    have usual : (say "cmd not found!\n").Usual .look := say_usual _
    exact ⟨loaded.trans (only_grows usual h), only_sameSender usual (by simp) (.inl lives'.1) h⟩
  | some cmdNum =>
    simp only [code] at h
    have usual := (cmdEntry cmdNum).func.run_usual cmdNum
    refine ⟨loaded.trans (only_grows usual h), ?_⟩
    by_cases starts : (cmdEntry cmdNum).func = .start
    · rw [starts] at h usual
      let I (u : Process) := u.thread id = some (.send stage) ∧ u.world.shared.joinable id = true
      refine .inl (settle_leads (I := I) (usual.leads ?_ ?_ lives') h).1
      · exact fun o u r v usual lives hop => operate_keepsSender usual lives hop
      · rintro o u e usual lives hop
        apply fails_safe _ hop
        rintro i - rfl
        cases usual
    · exact only_sameSender usual starts (.inl lives'.1) h

theorem step_sender {e : ProcessEvent} {id : Tid} {stage : Sender} (inv : s.SendInv)
    (lives : s.thread id = some (.send stage)) (other : e ≠ .advance id) (h : s.step host e = .ok t) :
    s.Grows t ∧ t.SameSender id stage := by
  cases e with
  | line self line =>
    simp only [step] at h
    split at h
    · exact handle_sender inv lives h
    · cases h
  | log i text =>
    simp only [step] at h
    split at h
    · have still := syslogProcess_still text
      refine ⟨only_grows still h, .inl ?_⟩
      obtain ⟨w, last, -, rfl⟩ := settle_mild still h
      exact lives
    · cases h
  | advance i =>
    have apart : id ≠ i := by
      rintro rfl
      exact other rfl
    simp only [step] at h
    cases hthread : s.thread i with
    | none => simp [hthread] at h
    | some thread =>
      cases thread with
      | receive => simp [hthread] at h
      | send stage' =>
        have recorded := (inv.sender i stage' hthread).2.1
        exact absurd ((inv.sender id stage lives).2.1.trans recorded.symm) apart
      | script w =>
        simp only [hthread] at h
        have only := inv.scripts i w hthread
        rcases advanceScript_cases h with rfl | ⟨line, k, hrest, h⟩ |
          ⟨o, k, r, world, hrest, hstep, rfl⟩
        · exact ⟨endThread_grows i s, SameSender.endThread (.inl lives) i⟩
        · rw [hrest] at only
          have moved : (s.setThread i (some (.script { w with rest := k () }))).SendInv :=
            moved_sendInv inv hthread (only.2 ()) fun p _ => .refl _ p
          generalize hs : s.setThread i (some (.script { w with rest := k () })) = loaded at h moved
          have stays : loaded.thread id = some (.send stage) := by
            subst hs
            simpa [Process.setThread, apart] using lives
          have first : s.Grows loaded := by
            subst hs
            exact ⟨[], [], by simp [Process.setThread]⟩
          obtain ⟨grows, same⟩ := handle_sender moved stays h
          exact ⟨first.trans grows, same⟩
        · rw [hrest] at only
          have queue : world.shared.queue = s.world.shared.queue :=
            interp_frame (p := .queue) only.1.2.2 hstep
          refine ⟨⟨[], [], by simp [Process.setThread, queue]⟩, ?_⟩
          exact SameSender.setThread (s := { s with world := world }) (.inl lives)

/-! ### Runs -/

/-- There is a queue, and the thread is a sender. -/
def Sending (id : Tid) (s : Process) : Prop :=
  s.world.shared.gMsgid ≠ failed ∧ ∃ stage, s.thread id = some (.send stage)

instance (id : Tid) (s : Process) : Decidable (s.Sending id) :=
  match lives : s.thread id with
  | some (.send stage) => decidable_of_iff (s.world.shared.gMsgid ≠ failed) (by simp [Sending, lives])
  | some .receive => .isFalse (by simp [Sending, lives])
  | some (.script _) => .isFalse (by simp [Sending, lives])
  | none => .isFalse (by simp [Sending, lives])

def turn (id : Tid) : ProcessEvent → Bool
  | .advance i => i = id
  | _ => false

/-- Others leave what has left the sender alone, as long as it lives. -/
theorem others_disposed {e : ProcessEvent} {id : Tid} {stage : Sender} (inv : s.SendInv)
    (lives : s.thread id = some (.send stage)) (other : e ≠ .advance id) (h : s.step host e = .ok t)
    (still : t.thread id = some (.send stage)) : t.disposed = s.disposed := by
  obtain ⟨⟨new, gone, accepted, queue, disposed⟩, -⟩ := step_sender inv lives other h
  have before : s.accepted = s.disposed.map Prod.fst ++ (s.held ++ s.world.shared.queue) := inv.place
  have after : t.accepted = t.disposed.map Prod.fst ++ (t.held ++ t.world.shared.queue) :=
    (step_sendInv inv h).place
  rw [(step_sendInv inv h).holds still, accepted, disposed, queue, before, inv.holds lives] at after
  have count := congrArg List.length after
  simp only [List.length_append, List.length_map] at count
  rw [disposed, List.eq_nil_of_length_eq_zero (by omega : gone.length = 0), List.append_nil]

theorem step_grows {e : ProcessEvent} (inv : s.SendInv) {id : Tid} {stage : Sender}
    (lives : s.thread id = some (.send stage)) (h : s.step host e = .ok t) :
    ∃ new gone, t.accepted = s.accepted ++ new ∧ t.disposed = s.disposed ++ gone := by
  by_cases own : e = .advance id
  · subst own
    simp only [step, lives, advanceSend] at h
    split at h
    · cases h
      exact ⟨[], _, by simp [Process.setThread, setShared], rfl⟩
    · cases h
  · obtain ⟨⟨new, gone, accepted, -, disposed⟩, -⟩ := step_sender inv lives own h
    exact ⟨new, gone, accepted, disposed⟩

section Turns

variable {id : Tid} {run : List ProcessEvent}

theorem run_grows (inv : s.SendInv) (sending : Along (step host) (fun _ s => s.Sending id) run s)
    (hrun : runAll (step host) run s = .ok t) :
    ∃ new gone, t.accepted = s.accepted ++ new ∧ t.disposed = s.disposed ++ gone := by
  induction run generalizing s with
  | nil =>
    obtain rfl := runAll_nil_ok hrun
    exact ⟨[], [], by simp⟩
  | cons e run ih =>
    obtain ⟨⟨-, stage, lives⟩, later⟩ := sending
    obtain ⟨u, hstep, hrest⟩ := runAll_cons_ok hrun
    obtain ⟨new, gone, accepted, disposed⟩ := step_grows inv lives hstep
    obtain ⟨new', gone', accepted', disposed'⟩ := ih (step_sendInv inv hstep) (later u hstep) hrest
    exact ⟨new ++ new', gone ++ gone', by simp [accepted', accepted], by simp [disposed', disposed]⟩

/-- With a message waiting, a step of the sender comes closer. -/
theorem turn_closer {stage : Sender} (inv : s.SendInv) (lives : s.thread id = some (.send stage))
    (queue : s.world.shared.gMsgid ≠ failed) (waiting : s.disposed.length < s.accepted.length)
    (h : s.step host (.advance id) = .ok t) : ∃ next gone, t.thread id = some (.send next) ∧
      t.disposed = s.disposed ++ gone ∧ stage.done < 7 * gone.length + next.done ∧
        ∀ p ∈ gone, p.2 ≠ .lost := by
  have pending : stage.held ++ s.world.shared.queue ≠ [] := by
    have place : s.accepted = s.disposed.map Prod.fst ++ (s.held ++ s.world.shared.queue) := inv.place
    intro empty
    rw [inv.holds lives, empty, List.append_nil] at place
    simp [place] at waiting
  simp only [step, lives, advanceSend] at h
  split at h
  · rename_i next shared gone hnext
    obtain ⟨closer, fates⟩ := Sender.step_done pending queue hnext
    cases h
    exact ⟨next, gone, by simp [Process.setThread], rfl, closer, fates⟩
  · cases h

/-- Enough steps of the sender for the first `count` messages ever queued. -/
theorem turns_suffice {stage : Sender} {count : Nat} (inv : s.SendInv)
    (sending : Along (step host) (fun _ s => s.Sending id) run s)
    (hrun : runAll (step host) run s = .ok t)
    (lives : s.thread id = some (.send stage)) (queued : count ≤ s.accepted.length)
    (turns : 7 * count < 7 * s.disposed.length + stage.done + run.countP (turn id)) :
    ∃ out rest, t.disposed = s.disposed ++ (out ++ rest) ∧ count ≤ (s.disposed ++ out).length ∧
      ∀ p ∈ out, p.2 ≠ .lost := by
  induction run generalizing s stage with
  | nil =>
    obtain rfl := runAll_nil_ok hrun
    have bound := stage.done_le
    simp only [List.countP_nil] at turns
    exact ⟨[], [], by simp, by simp only [List.append_nil]; omega, by simp⟩
  | cons e run ih =>
    by_cases enough : count ≤ s.disposed.length
    · obtain ⟨-, rest, -, disposed⟩ := run_grows inv sending hrun
      exact ⟨[], rest, by simpa using disposed, by simpa using enough, by simp⟩
    obtain ⟨⟨queue, -⟩, later⟩ := sending
    obtain ⟨u, hstep, hrest⟩ := runAll_cons_ok hrun
    have inv' := step_sendInv inv hstep
    obtain ⟨new, -, accepted, -⟩ := step_grows inv lives hstep
    have more : count ≤ u.accepted.length := by
      rw [accepted, List.length_append]
      omega
    by_cases own : e = .advance id
    · subst own
      obtain ⟨next, gone, lives', left, closer, kept⟩ := turn_closer inv lives queue (by omega) hstep
      have turns' : 7 * count < 7 * u.disposed.length + next.done + run.countP (turn id) := by
        simp only [List.countP_cons, turn, decide_true, ↓reduceIte] at turns
        simp only [left, List.length_append]
        omega
      obtain ⟨out, rest, disposed, enough, fates⟩ := ih inv' (later u hstep) hrest lives' more turns'
      refine ⟨gone ++ out, rest,
        by simp [disposed, left], by simpa [left] using enough, fun p hp => ?_⟩
      rcases List.mem_append.mp hp with here | after
      · exact kept p here
      · exact fates p after
    · have other : turn id e = false := by
        cases e with
        | advance i => simpa [turn] using own
        | _ => rfl
      rw [List.countP_cons_of_neg (by simp [other])] at turns
      rcases (step_sender inv lives own hstep).2 with still | none'
      · have left := others_disposed inv lives own hstep still
        rw [← left] at turns ⊢
        exact ih inv' (later u hstep) hrest still more turns
      · -- a run that ends the sender goes no further
        cases run with
        | nil =>
          have bound := stage.done_le
          simp only [List.countP_nil] at turns
          omega
        | cons e' run =>
          obtain ⟨stage', lives'⟩ := (later u hstep).1.2
          exact absurd lives' (none' stage')

end Turns

/-- Whatever the other threads do meanwhile, what is held or queued leaves in
order, and none of it is lost, once the sender has taken seven steps for each
message and one more. -/
theorem sender_delivers (host : Host) (opened : Int → Bool)
    (before run : List ProcessEvent) (s t : Process)
    (reached : runAll (step host) before (fresh opened) = .ok s)
    (hrun : runAll (step host) run s = .ok t)
    (id : Tid) (stage : Sender) (lives : s.thread id = some (.send stage))
    (sending : Along (step host) (fun _ s => s.Sending id) run s)
    (turns : 7 * (s.held ++ s.world.shared.queue).length < run.countP (turn id)) :
    ∃ out rest, t.disposed = s.disposed ++ (out ++ rest) ∧
      out.map Prod.fst = s.held ++ s.world.shared.queue ∧
      ∀ p ∈ out, p.2 ≠ .lost := by
  have inv := runAll_keeps (fun _ _ _ inv h => step_sendInv inv h) (fresh_sendInv opened) reached
  have inv' := runAll_keeps (fun _ _ _ inv h => step_sendInv inv h) inv hrun
  have place : s.accepted = s.disposed.map Prod.fst ++ (s.held ++ s.world.shared.queue) := inv.place
  have place' : t.accepted = t.disposed.map Prod.fst ++ (t.held ++ t.world.shared.queue) := inv'.place
  obtain ⟨new, -, accepted, -⟩ := run_grows inv sending hrun
  have count := congrArg List.length place
  simp only [List.length_append, List.length_map] at count turns
  obtain ⟨out, rest, disposed, enough, fates⟩ :=
    turns_suffice inv sending hrun lives le_rfl (by omega)
  have pending : (s.held ++ s.world.shared.queue).length ≤ out.length := by
    simp only [List.length_append] at enough ⊢
    omega
  refine ⟨out.take (s.held ++ s.world.shared.queue).length,
    out.drop (s.held ++ s.world.shared.queue).length ++ rest, ?_, ?_, fun p hp =>
      fates p (List.mem_of_mem_take hp)⟩
  · rw [← List.append_assoc (out.take _), List.take_append_drop, disposed]
  · generalize s.held ++ s.world.shared.queue = waiting at place pending ⊢
    rw [accepted, disposed, place] at place'
    simp only [List.map_append, List.append_assoc, List.append_cancel_left_eq] at place'
    have whole : waiting.length ≤ (out.map Prod.fst).length := by simpa using pending
    rw [List.map_take, ← List.take_append_of_le_length whole, ← place', List.take_left]

section Sample

/-- A message for client 1 waits. -/
def queuedCall : List ProcessEvent := [.line none "start test".toList, .line none "call 1 100".toList]

/-- Thread 4 sends while the main thread adds the client. -/
def sentCall : List ProcessEvent :=
  .advance 4 :: .line none "add 1 192.168.10.1".toList :: List.replicate 7 (.advance 4)

def afterQueuedCall : Except Fault Process :=
  runAll (step numberingHost) queuedCall (fresh fun d => d ≤ 2)

theorem afterQueuedCall_waits : ∃ s, afterQueuedCall = .ok s ∧ s.Sending 4 ∧
    (s.held ++ s.world.shared.queue).length = 1 ∧
      (runAll (step numberingHost) sentCall s).toOption.isSome = true ∧
      Along (step numberingHost) (fun _ s => s.Sending 4) sentCall s := by
  have found : (afterQueuedCall.toOption.any fun s => decide (s.Sending 4) &&
      ((s.held ++ s.world.shared.queue).length == 1) &&
        (runAll (step numberingHost) sentCall s).toOption.isSome &&
      decide (Along (step numberingHost) (fun _ s => s.Sending 4) sentCall s)) = true := by
    decide +kernel
  cases reached : afterQueuedCall with
  | error f => simp [reached, Except.toOption] at found
  | ok s => exact ⟨s, rfl, by simpa [reached, Except.toOption, and_assoc] using found⟩

theorem queued_sound_call : ∃ s, afterQueuedCall = .ok s ∧
    ∀ m ∈ s.accepted, Inside m.clientNum ∧ m.Fits := by
  obtain ⟨s, reached, -⟩ := afterQueuedCall_waits
  exact ⟨s, reached, queued_sound numberingHost (fun d => d ≤ 2) queuedCall s reached⟩

/-- Thread `id` has the mutex and a message. -/
def looksUp (id : Tid) (s : Process) : Bool :=
  match s.thread id with
  | some (.send stage) => !stage.waits && !stage.held.isEmpty
  | _ => false

theorem looksUp_inv {id : Tid} (looks : s.looksUp id = true) :
    ∃ stage, s.thread id = some (.send stage) ∧ stage.waits = false ∧ stage.held ≠ [] := by
  unfold looksUp at looks
  split at looks
  · rename_i stage lives
    exact ⟨stage, lives, by simpa using looks⟩
  · cases looks

/-- The sender is about to fetch the address of client 1. -/
def callLookUp : List ProcessEvent := queuedCall ++ List.replicate 4 (.advance 4)

theorem sender_steps_call : ∃ s stage t,
    runAll (step numberingHost) callLookUp (fresh fun d => d ≤ 2) = .ok s ∧
      s.thread 4 = some (.send stage) ∧ stage.held ≠ [] ∧
        s.step numberingHost (.advance 4) = .ok t := by
  have found : ((runAll (step numberingHost) callLookUp (fresh fun d => d ≤ 2)).toOption.any
      (looksUp 4)) = true := by
    decide +kernel
  cases reached : runAll (step numberingHost) callLookUp (fresh fun d => d ≤ 2) with
  | error f => simp [reached, Except.toOption] at found
  | ok s =>
    obtain ⟨stage, lives, going, holds⟩ : ∃ stage, s.thread 4 = some (.send stage) ∧
        stage.waits = false ∧ stage.held ≠ [] :=
          looksUp_inv (by simpa [reached, Except.toOption] using found)
    obtain ⟨t, hstep⟩ :=
      sender_steps numberingHost (fun d => d ≤ 2) callLookUp s reached 4 stage lives going
    exact ⟨s, stage, t, rfl, lives, holds, hstep⟩

theorem sender_delivers_call : ∃ s t out rest, afterQueuedCall = .ok s ∧
    runAll (step numberingHost) sentCall s = .ok t ∧ t.disposed = s.disposed ++ (out ++ rest) ∧
      out.map Prod.fst = s.held ++ s.world.shared.queue ∧ ∀ p ∈ out, p.2 ≠ .lost := by
  obtain ⟨s, reached, sends, one, ends, sending⟩ := afterQueuedCall_waits
  obtain ⟨-, stage, lives⟩ := sends
  cases hrun : runAll (step numberingHost) sentCall s with
  | error f => simp [hrun, Except.toOption] at ends
  | ok t =>
    have turns : 7 * (s.held ++ s.world.shared.queue).length < sentCall.countP (turn 4) := by
      rw [one]
      decide
    obtain ⟨out, rest, left, waited, fates⟩ :=
      sender_delivers numberingHost (fun d => d ≤ 2) queuedCall sentCall
      s t reached hrun 4 stage lives sending turns
    exact ⟨s, t, out, rest, reached, hrun, left, waited, fates⟩

end Sample

end Process

end AutoTest
