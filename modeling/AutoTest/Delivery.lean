import AutoTest.HandOver

/-!
# What becomes of a message

A message is queued by a handler, received by the sending thread, and then
passed to `sendto` or dropped at the look-up. Nothing protects a message that
the thread holds when `stop` or `quit` ends it.

* `Process.InPlace`: the messages queued are, in order, those that have left the
  thread, the one it holds, and those in the queue.
* `messages_conserved`: so it is after every run, however often the sender is
  stopped and started again.
-/

namespace AutoTest

open CString Program Cmd

/-! ## Operations beside the sender -/

/-- Neither a write to the handle of the sender nor its start. -/
def Op.Quiet : Op → Prop
  | .setSendThreadID _ => False
  | .pthreadCreate routine => routine ≠ .cmdSend
  | _ => True

theorem Op.quiet_of_group {o : Op} (h : o.group ≠ .sender) : o.Quiet := by
  cases o with
  | setSendThreadID => exact absurd rfl h
  | pthreadCreate routine => cases routine <;> simp_all [Op.Quiet, Op.group]
  | _ => trivial

theorem Op.Calm.quiet {o : Op} (h : o.Calm) : o.Quiet := by
  cases o <;> trivial

/-- An operation of a script thread, which leaves the queue and the handles of
the other threads alone. -/
def Op.OfScript (o : Op) : Prop :=
  .sendHandle ∉ o.writes ∧ .joinable ∉ o.writes ∧ .queue ∉ o.writes

section OfScript

variable {slot : Int}

theorem Op.AtSlot.ofScript {o : Op} (h : o.AtSlot slot) : o.OfScript := by
  cases o <;> first | exact h.elim | simp [OfScript, writes]

theorem scriptCmdProcess_ofScript : scriptCmdProcess.Only Op.OfScript := by
  have free {o : Op} (h : o.writes = []) : o.OfScript := by simp [Op.OfScript, h]
  rw [scriptCmdProcess_eq]
  apply Prog.Only.bind_op (free rfl)
  intro _
  apply Prog.Only.bind_op (free rfl)
  intro token
  exact scriptBody_atSlot.mono fun _ => Op.AtSlot.ofScript

end OfScript

/-! ## The invariant -/

namespace Process

/-- The messages that the recorded sender has received and not passed on. -/
def held (s : Process) : List MsgQ := s.heldBy s.world.shared.thrCmdSendId

/-- Every message queued has left the sender, or is held by it or queued. -/
def InPlace (s : Process) : Prop :=
  s.accepted = s.disposed.map Prod.fst ++ (s.held ++ s.world.shared.queue)

/-- A sender is the thread whose handle is recorded. -/
structure SendInv (s : Process) : Prop where
  place : s.InPlace
  sender : ∀ id stage, s.thread id = some (.send stage) →
    id ≠ 0 ∧ id = s.world.shared.thrCmdSendId ∧ s.world.shared.joinable id = true
  scripts : ∀ id w, s.Runs id w → w.rest.Only Op.OfScript

theorem idle_sendInv (world : World) : (idle world).SendInv := by
  refine ⟨?_, by simp [idle], by simp [idle, Runs]⟩
  simp [InPlace, held, heldBy, idle]

variable {host : Host} {self : Option Tid} {line : Text} {s t : Process}

theorem SendInv.heldBy (inv : s.SendInv) {id : Tid} (other : id ≠ s.world.shared.thrCmdSendId) :
    s.heldBy id = [] := by
  unfold Process.heldBy
  split
  · rename_i stage hthread
    exact absurd (inv.sender id stage hthread).2.1 other
  · rfl

/-- A change that is no matter to the sender. -/
theorem SendInv.mono (inv : s.SendInv) (place : t.InPlace)
    (senders : ∀ id stage, t.thread id = some (.send stage) → s.thread id = some (.send stage))
    (scripts : ∀ id w, t.Runs id w → w.rest.Only Op.OfScript)
    (handle : t.world.shared.thrCmdSendId = s.world.shared.thrCmdSendId)
    (joinable : ∀ id stage, t.thread id = some (.send stage) →
      t.world.shared.joinable id = s.world.shared.joinable id) : t.SendInv := by
  refine ⟨place, fun id stage hthread => ?_, scripts⟩
  rw [handle, joinable id stage hthread]
  exact inv.sender id stage (senders id stage hthread)

theorem SendInv.frame (inv : s.SendInv) (threads : t.thread = s.thread)
    (accepted : t.accepted = s.accepted) (disposed : t.disposed = s.disposed)
    (same : ∀ p : Part, p = .sendHandle ∨ p = .joinable ∨ p = .queue →
      p.Same s.world.shared t.world.shared) : t.SendInv := by
  have handle : t.world.shared.thrCmdSendId = _ := same .sendHandle (by simp)
  have joinable : t.world.shared.joinable = _ := same .joinable (by simp)
  have queue : t.world.shared.queue = _ := same .queue (by simp)
  refine inv.mono ?_ (by simp [threads]) ?_ handle fun id _ _ => congrFun joinable id
  · simp only [InPlace, held, Process.heldBy, threads, accepted, disposed, handle, queue]
    exact inv.place
  · exact fun id w runs => inv.scripts id w (by simpa [Runs, threads] using runs)

/-- The message that an ended sender held is lost. -/
theorem SendInv.endThread (inv : s.SendInv) (id : Tid) : (s.endThread id).SendInv := by
  have others {i : Tid} {stage : Sender}
      (h : (s.endThread id).thread i = some (.send stage)) : s.thread i = some (.send stage) := by
    by_cases same : i = id
    · simp [Process.endThread, setThread, same] at h
    · simpa [Process.endThread, setThread, same] using h
  refine inv.mono ?_ (fun _ _ => others) ?_ rfl fun _ _ _ => rfl
  · have place : s.accepted = s.disposed.map Prod.fst ++ (s.held ++ s.world.shared.queue) := inv.place
    by_cases sender : id = s.world.shared.thrCmdSendId
    · subst sender
      have gone : (s.endThread s.world.shared.thrCmdSendId).held = [] := by
        simp [held, Process.heldBy, Process.endThread, setThread]
      show s.accepted = (s.disposed ++ _).map Prod.fst ++ (_ ++ s.world.shared.queue)
      rw [gone, place, List.map_append, List.map_map]
      simp [held, Function.comp_def]
    · have kept : (s.endThread id).held = s.held := by
        simp [held, Process.heldBy, Process.endThread, setThread, Ne.symm sender]
      show s.accepted = (s.disposed ++ _).map Prod.fst ++ (_ ++ s.world.shared.queue)
      rw [kept, inv.heldBy sender, place]
      simp
  · exact fun i w runs => inv.scripts i w (runs_endThread.mp runs).2

theorem ended_sendInv (inv : s.SendInv) {o : Op} {e : Halt}
    (h : operate host self line o s = .error e) : e.Safe SendInv := by
  cases e with
  | fault f => trivial
  | ended t =>
    obtain ⟨id, -, -, rfl⟩ := operate_ended h
    exact inv.endThread id

theorem msgsnd_sendInv (inv : s.SendInv) {m : MsgQ} {r : Int}
    (h : operate host self line (.msgsnd m) s = .ok (r, t)) : t.SendInv := by
  obtain ⟨w, hstep, rfl⟩ := operate_msgsnd h
  have same (p : Part) (hp : p ≠ .queue) : p.Same s.world.shared w.shared :=
    interp_frame (by simpa [Op.writes] using hp) hstep
  refine inv.mono ?_ (fun _ _ h => h) inv.scripts (same .sendHandle (by simp)) ?_
  · have place : s.accepted = _ := inv.place
    have handle : w.shared.thrCmdSendId = _ := same .sendHandle (by simp)
    simp only [interp, sharedStep] at hstep
    split at hstep
    · rename_i hshared
      split at hshared
      · cases hshared
        cases hstep
        simp [InPlace, held, Process.heldBy, place, failed, Shared.asked]
      · cases hshared
        cases hstep
        simp [InPlace, held, Process.heldBy, place, Shared.asked]
    · cases hstep
  · exact fun id _ _ => congrFun (same .joinable (by simp)) id

/-- A new thread that is no sender. -/
theorem created_sendInv (inv : s.SendInv) {id : Tid} (fresh : s.world.shared.joinable id = false)
    {routine : Routine} (other : routine ≠ .cmdSend) :
    SendInv (setThread id (some (.created line routine)) (s.setShared { s.world.shared.asked with
      joinable := Function.update s.world.shared.joinable id true })) := by
  have unsent : s.heldBy id = [] := by
    unfold Process.heldBy
    split
    · rename_i stage hthread
      simp [(inv.sender id stage hthread).2.2] at fresh
    · rfl
  have old {i : Tid} {stage : Sender} (h : (setThread id (some (.created line routine))
      (s.setShared { s.world.shared.asked with
        joinable := Function.update s.world.shared.joinable id true })).thread i =
          some (.send stage)) :
      i ≠ id ∧ s.thread i = some (.send stage) := by
    by_cases same : i = id
    · cases routine with
      | cmdSend => exact absurd rfl other
      | retReceive | scriptCmdProcess => simp [setThread, same, Thread.created] at h
    · exact ⟨same, by simpa [setThread, setShared, same] using h⟩
  refine inv.mono ?_ (fun _ _ h => (old h).2) (fun i w runs => ?_) rfl fun i _ h =>
    Function.update_of_ne (old h).1 _ _
  · have place : s.accepted = s.disposed.map Prod.fst ++ (s.held ++ s.world.shared.queue) := inv.place
    show s.accepted = s.disposed.map Prod.fst ++ (_ ++ s.world.shared.queue)
    rw [place]
    congr 2
    by_cases sender : s.world.shared.thrCmdSendId = id
    · rw [held, sender, unsent]
      cases routine with
      | cmdSend => exact absurd rfl other
      | retReceive | scriptCmdProcess =>
        simp [held, Process.heldBy, setThread, setShared, Shared.asked, sender, Thread.created]
    · simp [held, Process.heldBy, setThread, setShared, Shared.asked, sender]
  · rcases runs_setThread.mp runs with ⟨-, new⟩ | ⟨-, runs⟩
    · cases routine with
      | cmdSend | retReceive => simp [Thread.created] at new
      | scriptCmdProcess =>
        obtain rfl : Worker.created line = w := by simpa [Thread.created] using new
        exact scriptCmdProcess_ofScript
    · exact inv.scripts i w runs

theorem quiet_sendInv (inv : s.SendInv) {o : Op} (quiet : o.Quiet) {r : o.Res}
    (h : operate host self line o s = .ok (r, t)) :
    t.SendInv ∧ t.world.shared.thrCmdSendId = s.world.shared.thrCmdSendId := by
  cases o with
  | setSendThreadID => exact quiet.elim
  | pthreadKill id =>
    obtain rfl := operate_kill h
    exact ⟨inv, rfl⟩
  | pthreadJoin id =>
    obtain ⟨-, rfl⟩ := operate_join h
    have ended := inv.endThread id
    refine ⟨ended.mono ended.place (fun _ _ h => h) ended.scripts rfl fun i stage hthread => ?_, rfl⟩
    refine Function.update_of_ne ?_ _ _
    rintro rfl
    simp [Process.endThread, setThread, setShared] at hthread
  | pthreadCreate routine =>
    rcases operate_create h with ⟨-, rfl⟩ | ⟨id, nonzero, fresh, -, rfl⟩
    · refine ⟨inv.frame rfl rfl rfl fun p _ => ?_, rfl⟩
      cases p <;> rfl
    · exact ⟨created_sendInv inv fresh quiet, rfl⟩
  | msgsnd m =>
    refine ⟨msgsnd_sendInv inv h, ?_⟩
    obtain ⟨w, hstep, rfl⟩ := operate_msgsnd h
    exact interp_frame (p := .sendHandle) (by simp [Op.writes]) hstep
  | _ =>
    obtain ⟨w, hstep, rfl⟩ := operate_still rfl h
    have same (p : Part) (hp : p = .sendHandle ∨ p = .joinable ∨ p = .queue) :
        p.Same s.world.shared w.shared := by
      refine interp_frame ?_ hstep
      rcases hp with rfl | rfl | rfl <;> simp [Op.writes]
    exact ⟨inv.frame rfl rfl rfl same, same .sendHandle (by simp)⟩

/-! ### The commands -/

/-- The invariant with the handle that is recorded. -/
def Sends (id : Tid) (s : Process) : Prop := s.SendInv ∧ s.world.shared.thrCmdSendId = id

theorem quiet_sends {id : Tid} (sends : s.Sends id) {o : Op} (quiet : o.Quiet) {r : o.Res}
    (h : operate host self line o s = .ok (r, t)) : t.Sends id := by
  obtain ⟨inv, handle⟩ := quiet_sendInv sends.1 quiet h
  exact ⟨inv, handle.trans sends.2⟩

theorem quiet_leads {id : Tid} {α : Type} {p : Cmd α} (quiet : p.Only Op.Quiet)
    (sends : s.Sends id) :
    p.Leads (operate host self line) (Halt.Safe SendInv) (fun _ => Sends id) s :=
  quiet.leads (fun _ _ _ _ quiet sends h => quiet_sends sends quiet h)
    (fun _ _ _ _ sends h => ended_sendInv sends.1 h) sends

theorem quiet_keeps {α : Type} {p : Cmd α} (quiet : p.Only Op.Quiet) (inv : s.SendInv) :
    p.Leads (operate host self line) (Halt.Safe SendInv) (fun _ => SendInv) s :=
  (quiet_leads quiet ⟨inv, rfl⟩).mono fun _ _ sends => sends.1

theorem touches_quiet {α : Type} {p : Cmd α} {groups : List Group} (touches : p.Touches groups)
    (handles : .sender ∉ groups) : p.Only Op.Quiet :=
  Prog.Only.mono (fun _ ho => Op.quiet_of_group fun same => handles (same ▸ ho)) touches

theorem calm_quiet {α : Type} {p : Cmd α} (h : p.Calm) : p.Only Op.Quiet :=
  h.mono fun _ => Op.Calm.quiet

/-- A sender is created when none is recorded, and its handle recorded. -/
theorem createSend_leads {f : Cmd Unit} (sends : s.Sends 0) (quiet : f.Only Op.Quiet) :
    Prog.Leads (operate host self line) (Halt.Safe SendInv) (fun _ => SendInv) (do
      match ← pthreadCreate .cmdSend with
      | none => say "Create test pthread error!\n"
      | some id =>
        setSendThreadID id
        f) s := by
  obtain ⟨inv, zero⟩ := sends
  have none' {i : Tid} {stage : Sender} (h : s.thread i = some (.send stage)) : False := by
    obtain ⟨nonzero, same, -⟩ := inv.sender i stage h
    exact nonzero (same.trans zero)
  refine .bind_op (fun created t hcreate => ?_) fun _ => ended_sendInv inv
  rcases operate_create hcreate with ⟨rfl, rfl⟩ | ⟨id, nonzero, fresh, rfl, rfl⟩
  · refine quiet_keeps (calm_quiet (say_calm _)) (inv.frame rfl rfl rfl fun p _ => ?_)
    cases p <;> rfl
  · refine .bind_op (fun _ u hset => quiet_keeps quiet ?_) fun e he => ?_
    · cases hset
      have held : s.held = [] := by
        unfold Process.held Process.heldBy
        split
        · rename_i stage hthread
          exact (none' hthread).elim
        · rfl
      refine ⟨?_, fun i stage h => ?_, fun i w runs => ?_⟩
      · have place : s.accepted = s.disposed.map Prod.fst ++ (s.held ++ s.world.shared.queue) :=
          inv.place
        rw [held] at place
        simpa [InPlace, Process.held, Process.heldBy, setThread, setShared, Thread.created,
          Shared.asked, Sender.held] using place
      · by_cases same : i = id
        · subst same
          exact ⟨nonzero, rfl, Function.update_self _ _ _⟩
        · exact (none' (by simpa [setThread, setShared, same] using h)).elim
      · rcases runs_setThread.mp runs with ⟨-, new⟩ | ⟨-, old⟩
        · simp [Thread.created] at new
        · exact inv.scripts i w old
    · cases e with
      | fault f => trivial
      | ended u =>
        obtain ⟨i, kill, -, -⟩ := operate_ended he
        cases kill

theorem start_keeps (cmdNum : Nat) (inv : s.SendInv) :
    (start cmdNum).Leads (operate host self line) (Halt.Safe SendInv) (fun _ => SendInv) s := by
  have plain {p : Cmd Unit} {u : Process} {id : Tid} (h : p.Calm) (sends : u.Sends id) :
      p.Leads (operate host self line) (Halt.Safe SendInv) (fun _ => SendInv) u :=
    quiet_keeps (calm_quiet h) sends.1
  have wrong := wrongParameter_calm cmdNum
  unfold start
  refine .bind_op (fun gParamNum u hread => ?_) fun _ => ended_sendInv inv
  obtain ⟨-, rfl⟩ := operate_paramNum hread
  refine .ite (fun _ => quiet_keeps (calm_quiet wrong) inv) fun _ => ?_
  refine .bind_op (fun sendId v hread => ?_) fun _ => ended_sendInv inv
  obtain ⟨hsend, rfl⟩ := operate_getSendThreadID hread
  have sends : v.Sends sendId := ⟨inv, hsend.symm⟩
  clear hread
  refine .bind_op (fun recId u hread => ?_) fun _ => ended_sendInv inv
  obtain ⟨-, rfl⟩ := operate_getRecThreadID hread
  refine .bind_op (fun mode v hread => ?_) fun _ => ended_sendInv inv
  obtain ⟨-, rfl⟩ := operate_param hread
  refine .ite (fun _ => ?_) fun _ => ?_
  · exact .ite (fun _ => plain (say_calm _) sends) fun _ =>
      quiet_keeps (touches_quiet createRec_touches (by decide)) inv
  refine .bind_op (fun opened a hask => ?_) fun _ => ended_sendInv inv
  replace sends := quiet_sends sends (o := .openMsgFile) trivial hask
  refine .ite (fun _ => plain (say_calm _) sends) fun _ => ?_
  refine .bind_op (fun key b hask => ?_) fun _ => ended_sendInv sends.1
  replace sends := quiet_sends sends (o := .ftok) trivial hask
  refine .ite (fun _ => plain (say_calm _) sends) fun _ => ?_
  refine .bind_op (fun msgid c hask => ?_) fun _ => ended_sendInv sends.1
  replace sends := quiet_sends sends (o := .msgget key) trivial hask
  refine .ite (fun _ => plain (say_calm _) sends) fun _ => ?_
  refine .bind_op (fun _ d hask => ?_) fun _ => ended_sendInv sends.1
  replace sends := quiet_sends sends (o := .gScriptParamInit) trivial hask
  refine .bind_op (fun mode e hread => ?_) fun _ => ended_sendInv sends.1
  replace sends := quiet_sends sends (o := .param 1) trivial hread
  refine .ite (fun _ => ?_) fun _ => .ite (fun _ => ?_) fun _ => plain wrong sends
  · apply Prog.Leads.ite
    · intro zero
      exact createSend_leads (zero ▸ sends) (.bind (calm_quiet (say_calm _)) fun _ =>
        touches_quiet (startAllRec_touches recId) (by decide))
    · intro _
      exact quiet_keeps (.bind (calm_quiet (say_calm _)) fun _ =>
        touches_quiet (startAllRec_touches recId) (by decide)) sends.1
  · refine .ite (fun _ => plain (say_calm _) sends) fun zero => ?_
    exact createSend_leads (not_not.mp zero ▸ sends) (calm_quiet (say_calm _))

/-- The handle is reset once the sender is gone. -/
theorem stopSend_keeps {sendId : Tid} (sends : s.Sends sendId) :
    (stopSend sendId).Leads (operate host self line) (Halt.Safe SendInv) (fun _ => SendInv) s := by
  unfold stopSend
  refine .ite (fun _ => ?_) fun _ => sends.1
  refine .bind_op (fun _ u hkill => ?_) fun _ => ended_sendInv sends.1
  obtain rfl := operate_kill hkill
  refine .bind_op (fun _ v hjoin => ?_) fun _ => ended_sendInv sends.1
  have joined := quiet_sends sends (o := .pthreadJoin sendId) trivial hjoin
  have none' {i : Tid} {stage : Sender} (h : v.thread i = some (.send stage)) : False := by
    obtain ⟨-, rfl⟩ := operate_join hjoin
    have same := (joined.1.sender i stage h).2.1.trans joined.2
    simp [Process.endThread, setThread, setShared, same] at h
  refine .bind_op (fun _ w hset => ?_) fun e he => ?_
  · cases hset
    refine quiet_keeps (calm_quiet (say_calm _)) ⟨?_, fun i stage h => (none' h).elim,
      joined.1.scripts⟩
    have place : v.accepted = v.disposed.map Prod.fst ++ (v.held ++ v.world.shared.queue) :=
      joined.1.place
    have empty (id : Tid) : v.heldBy id = [] := by
      unfold Process.heldBy
      split
      · rename_i stage hthread
        exact (none' hthread).elim
      · rfl
    have before : v.held = [] := empty _
    rw [before] at place
    have after : v.heldBy 0 = [] := empty 0
    show v.accepted = v.disposed.map Prod.fst ++ (v.heldBy 0 ++ v.world.shared.queue)
    rw [after]
    exact place
  · cases e with
    | fault f => trivial
    | ended u =>
      obtain ⟨i, kill, -, -⟩ := operate_ended he
      cases kill

theorem stop_keeps (cmdNum : Nat) (inv : s.SendInv) :
    (stop cmdNum).Leads (operate host self line) (Halt.Safe SendInv) (fun _ => SendInv) s := by
  have wrong : (wrongParameter cmdNum).Only Op.Quiet := calm_quiet (wrongParameter_calm cmdNum)
  unfold stop
  refine .bind_op (fun sendId t hread => ?_) fun _ => ended_sendInv inv
  obtain ⟨rfl, rfl⟩ := operate_getSendThreadID hread
  have sends : t.Sends t.world.shared.thrCmdSendId := ⟨inv, rfl⟩
  refine .bind_op (fun recId u hread => ?_) fun _ => ended_sendInv inv
  obtain ⟨-, rfl⟩ := operate_getRecThreadID hread
  refine .bind_op (fun gParamNum v hread => ?_) fun _ => ended_sendInv inv
  obtain ⟨-, rfl⟩ := operate_paramNum hread
  apply Prog.Leads.ite (fun _ => quiet_keeps wrong inv)
  intro _
  refine .bind_op (fun mode w hread => ?_) fun _ => ended_sendInv inv
  obtain ⟨-, rfl⟩ := operate_param hread
  refine .ite (fun _ => ?_) fun _ => .ite (fun _ => stopSend_keeps sends) fun _ =>
    .ite (fun _ => quiet_keeps (touches_quiet (stopRec_touches _) (by decide)) inv) fun _ =>
      quiet_keeps ?_ inv
  · refine .bind (stopSend_keeps sends) fun _ t inv => quiet_keeps ?_ inv
    refine .bind (touches_quiet (stopRec_touches _) (by decide)) fun _ => .bind ?_ fun _ => ?_
    · exact each_only fun index => touches_quiet (stopScript_touches index) (by decide)
    · exact ⟨trivial, fun _ => ⟨trivial, fun _ => trivial⟩⟩
  · refine .bind_op trivial fun word => .ite (fun _ => .bind_op trivial fun number =>
      ?_) fun _ => wrong
    refine .ite (fun _ => calm_quiet (say_calm _)) fun _ => .bind_op trivial fun scId => ?_
    refine .ite (fun _ => trivial) fun _ => ?_
    repeat refine .bind_op trivial fun _ => ?_
    trivial

theorem dispatch_keeps (name : Text) (inv : s.SendInv) :
    (dispatch name).Leads (operate host self line) (Halt.Safe SendInv) (fun _ => SendInv) s := by
  unfold dispatch
  cases getCmdCode name with
  | none => exact quiet_keeps (calm_quiet (say_calm _)) inv
  | some cmdNum =>
    dsimp only
    cases threads : (cmdEntry cmdNum).func.threads with
    | false => exact quiet_keeps (calm_quiet (Func.run_calm cmdNum threads)) inv
    | true =>
      cases func : (cmdEntry cmdNum).func with
      | start => exact start_keeps cmdNum inv
      | stop => exact stop_keeps cmdNum inv
      | quit => exact quiet_keeps (touches_quiet (quit_touches cmdNum) (by decide)) inv
      | runScript => exact quiet_keeps (touches_quiet (runScript_touches cmdNum) (by decide)) inv
      | _ => simp [func, Func.threads] at threads

theorem handle_sendInv (inv : s.SendInv) (h : s.handle host self line = .ok t) : t.SendInv := by
  refine settle_leads ?_ h
  unfold cmdProc
  refine .bind_op (fun _ u hset => ?_) fun _ => ended_sendInv inv
  have kept := (quiet_sendInv inv (o := .setParams line) trivial hset).1
  refine .bind_op (fun name v hread => ?_) fun _ => ended_sendInv kept
  obtain ⟨-, rfl⟩ := operate_param hread
  exact dispatch_keeps name kept

/-! ### The threads -/

theorem moved_sendInv (inv : s.SendInv) {id : Tid} {w w' : Worker} (runs : s.Runs id w)
    (only : w'.rest.Only Op.OfScript) {world : World}
    (same : ∀ p : Part, p = .sendHandle ∨ p = .joinable ∨ p = .queue →
      p.Same s.world.shared world.shared) :
    SendInv (setThread id (some (.script w')) { s with world := world }) := by
  have handle : world.shared.thrCmdSendId = _ := same .sendHandle (by simp)
  have joinable : world.shared.joinable = _ := same .joinable (by simp)
  have queue : world.shared.queue = _ := same .queue (by simp)
  refine inv.mono ?_ (fun i stage h => ?_) (fun i v hv => ?_) handle fun i _ _ => congrFun joinable i
  · have place : s.accepted = s.disposed.map Prod.fst ++ (s.held ++ s.world.shared.queue) := inv.place
    have held : Process.held (setThread id (some (.script w')) { s with world := world }) =
        s.held := by
      have hthread : s.thread id = some (.script w) := runs
      by_cases sender : s.world.shared.thrCmdSendId = id
      · simp [Process.held, Process.heldBy, setThread, handle, sender, hthread]
      · simp [Process.held, Process.heldBy, setThread, handle, sender]
    show s.accepted = s.disposed.map Prod.fst ++ (_ ++ world.shared.queue)
    rw [held, queue, place]
  · by_cases same : i = id
    · simp [setThread, same] at h
    · simpa [setThread, same] using h
  · rcases runs_setThread.mp hv with ⟨-, new⟩ | ⟨-, old⟩
    · obtain rfl : w' = v := by simpa using new
      exact only
    · exact inv.scripts i v old

theorem advanceScript_sendInv (inv : s.SendInv) {id : Tid} {w : Worker} (runs : s.Runs id w)
    (h : s.advanceScript host id w = .ok t) : t.SendInv := by
  have only := inv.scripts id w runs
  cases hrest : w.rest with
  | pure a => simp [advanceScript, hrest] at h
  | op o k =>
    rw [hrest] at only
    by_cases exits : o = .pthreadExit
    · subst exits
      obtain rfl : s.endThread id = t := by simpa [advanceScript, hrest] using h
      exact inv.endThread id
    by_cases passes : ∃ line, o = .call line
    · obtain ⟨line, rfl⟩ := passes
      rw [advanceScript_call hrest] at h
      have rest : (Worker.rest { w with rest := k () }).Only Op.OfScript := only.2 ()
      exact handle_sendInv (moved_sendInv inv runs rest fun p _ => .refl _ p) h
    · have noCall : ∀ line, o ≠ .call line := fun line same => passes ⟨line, same⟩
      rw [advanceScript_op hrest exits noCall] at h
      cases hstep : interp host (fun _ => .ok) o s.world with
      | error f => simp [hstep] at h
      | ok rw' =>
        simp only [hstep, Except.ok.injEq] at h
        subst h
        obtain ⟨handle, joinable, queue⟩ := only.1
        refine moved_sendInv inv runs (only.2 _) fun p hp => interp_frame ?_ hstep
        rcases hp with rfl | rfl | rfl
        · exact handle
        · exact joinable
        · exact queue

theorem advanceSend_sendInv (inv : s.SendInv) {id : Tid} {stage : Sender}
    (hthread : s.thread id = some (.send stage)) (h : s.advanceSend id stage = .ok t) :
    t.SendInv := by
  have sender := (inv.sender id stage hthread).2.1
  unfold advanceSend at h
  cases hstep : stage.step s.world.shared with
  | error f => simp [hstep] at h
  | ok r =>
    obtain ⟨next, shared, gone⟩ := r
    obtain ⟨only, moves⟩ := Sender.step_moves hstep
    simp only [hstep, Except.ok.injEq] at h
    subst h
    have handle : shared.thrCmdSendId = s.world.shared.thrCmdSendId :=
      congrArg (fun shared => shared.thrCmdSendId) only
    refine ⟨?_, fun i stage' hi => ?_, fun i w runs => ?_⟩
    · have place : s.accepted = s.disposed.map Prod.fst ++ (s.held ++ s.world.shared.queue) :=
        inv.place
      have before : s.held = stage.held := by
        rw [held, ← sender, Process.heldBy, hthread]
      simp only [InPlace, held, Process.heldBy, setThread, setShared, handle, ← sender,
        Function.update_self, List.map_append]
      rw [place, before, moves, List.append_assoc]
    · by_cases same : i = id
      · subst same
        exact ⟨(inv.sender i stage hthread).1, sender.trans handle.symm,
          (congrArg (fun shared => shared.joinable i) only).trans (inv.sender i stage hthread).2.2⟩
      · have old : s.thread i = some (.send stage') := by simpa [setThread, setShared, same] using hi
        exact absurd ((inv.sender i stage' old).2.1.trans sender.symm) same
    · rcases runs_setThread.mp runs with ⟨-, new⟩ | ⟨-, old⟩
      · cases new
      · exact inv.scripts i w old

theorem step_sendInv {e : ProcessEvent} (inv : s.SendInv)
    (h : s.step host e = .ok t) : t.SendInv := by
  cases e with
  | line self line =>
    simp only [step] at h
    split at h
    · exact handle_sendInv inv h
    · cases h
  | log id text =>
    simp only [step] at h
    split at h
    · exact settle_leads (quiet_keeps (calm_quiet (syslogProcess_calm text)) inv) h
    · cases h
  | advance id =>
    simp only [step] at h
    cases hthread : s.thread id with
    | none => simp [hthread] at h
    | some thread =>
      cases thread with
      | receive => simp [hthread] at h
      | script w =>
        simp only [hthread] at h
        exact advanceScript_sendInv inv hthread h
      | send stage =>
        simp only [hthread] at h
        exact advanceSend_sendInv inv hthread h

/-! ## Every run -/

/-- The messages with a given fate, in the order in which they met it. -/
def withFate (fate : Fate) (s : Process) : List MsgQ :=
  (s.disposed.filter fun p => p.2 = fate).map Prod.fst

/-- Every message accepted is in one place, the messages passed to `sendto` are
in order, and only the recorded sender holds messages. -/
structure Accounted (s : Process) : Prop where
  place : s.accepted = s.disposed.map Prod.fst ++ (s.held ++ s.world.shared.queue)
  ordered : (s.withFate .handed).Sublist s.accepted
  holder : ∀ id, s.heldBy id ≠ [] → id = s.world.shared.thrCmdSendId

theorem SendInv.accounted (inv : s.SendInv) : s.Accounted := by
  have place : s.accepted = s.disposed.map Prod.fst ++ (s.held ++ s.world.shared.queue) := inv.place
  refine ⟨place, ?_, fun id holds => ?_⟩
  · rw [place]
    exact (List.filter_sublist.map Prod.fst).trans (List.sublist_append_left _ _)
  · by_contra other
    exact holds (inv.heldBy other)

/-- In every run each message queued is in the queue, held by the sender, or
has left it, in the order of the queue: passed to `sendto`, dropped because its
client was unused, or lost with a sender that was ended. -/
theorem messages_conserved (host : Host) (world : World) (run : List ProcessEvent) {s : Process}
    (reached : runAll (step host) run (idle world) = .ok s) : s.Accounted := by
  have always : Along (step host) (fun _ _ => True) run (idle world) :=
    along_of_forall (fun _ _ _ => trivial) _
  have inv : s.SendInv := Along.invariant SendInv (fun _ _ _ inv _ h => step_sendInv inv h)
    (idle_sendInv world) always reached
  exact inv.accounted

section Sample

/-- A message is queued and received, and the sender is stopped before the look-up. -/
def stoppedHolding : List ProcessEvent :=
  [.line none "start test".toList, .line none "call 1 100".toList, .advance 4, .advance 4,
    .line none "stop test".toList]

def sampleStart : Process := idle ⟨.initial, .initial fun _ => none⟩

def sizes (s : Process) : List Nat :=
  [s.accepted.length, s.disposed.length, (s.withFate .lost).length, s.held.length,
    s.world.shared.queue.length]

theorem accounted_stoppedHolding : ∃ s,
    runAll (step numberingHost) stoppedHolding sampleStart = .ok s ∧ sizes s = [1, 1, 1, 0, 0] ∧
      s.Accounted := by
  have counted : (runAll (step numberingHost) stoppedHolding sampleStart).toOption.map sizes =
      some [1, 1, 1, 0, 0] := by
    decide +kernel
  cases reached : runAll (step numberingHost) stoppedHolding sampleStart with
  | error f => simp [reached, Except.toOption] at counted
  | ok s =>
    refine ⟨s, rfl, by simpa [reached, Except.toOption] using counted, ?_⟩
    exact messages_conserved numberingHost ⟨.initial, .initial fun _ => none⟩ stoppedHolding reached

/-- The message is neither queued nor held, passed to `sendto` or dropped. -/
theorem stoppedHolding_loses : ¬ ∀ run s, runAll (step numberingHost) run sampleStart = .ok s →
    s.accepted.Perm (s.withFate .handed ++ s.withFate .discarded ++ s.held ++
      s.world.shared.queue) := by
  intro conserved
  have counted : (runAll (step numberingHost) stoppedHolding sampleStart).toOption.map
      (fun s => (s.accepted.length, (s.withFate .handed ++ s.withFate .discarded ++ s.held ++
        s.world.shared.queue).length)) = some (1, 0) := by
    decide +kernel
  cases reached : runAll (step numberingHost) stoppedHolding sampleStart with
  | error f => simp [reached, Except.toOption] at counted
  | ok s =>
    have same := (conserved stoppedHolding s reached).length_eq
    simp only [reached, Except.toOption, Option.map_some, Option.some.injEq, Prod.mk.injEq] at counted
    omega

end Sample

end Process

end AutoTest
