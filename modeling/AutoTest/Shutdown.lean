import AutoTest.Progress

/-!
# What is left after `stop all`

The line ends the sender, the receive thread and the scripts through the
handles that are recorded. A thread that no handle leads to would go on.

* `step_recvInv`: the receive thread that is there is the one recorded.
* `stop_all_ends`: once the line is done, only scripts are left that have
  cleared their handle, and no message is at a sender.
-/

namespace AutoTest

open CString Program Cmd

namespace Process

variable {host : Host} {self : Option Tid} {line : Text} {s t : Process}

/-! ## The receive thread -/

def RecvInv (s : Process) : Prop := ∀ id, s.thread id = some .receive →
  id ≠ 0 ∧ id = s.world.shared.thrRetReceiveId ∧ s.world.shared.joinable id = true

/-- The invariant with the handle that is recorded. -/
def Receives (id : Tid) (s : Process) : Prop := s.RecvInv ∧ s.world.shared.thrRetReceiveId = id

theorem RecvInv.mono (inv : s.RecvInv) (threads : ∀ id, t.thread id = some .receive →
    s.thread id = some .receive)
    (handle : t.world.shared.thrRetReceiveId = s.world.shared.thrRetReceiveId)
    (joinable : ∀ id, t.thread id = some .receive →
      t.world.shared.joinable id = s.world.shared.joinable id) :
    t.RecvInv := by
  intro id receives
  rw [handle, joinable id receives]
  exact inv id (threads id receives)

theorem RecvInv.endThread (inv : s.RecvInv) (id : Tid) : (s.endThread id).RecvInv := by
  have others {i : Tid} (receives : (s.endThread id).thread i = some .receive) :
      s.thread i = some .receive := by
    by_cases same : i = id
    · simp [Process.endThread, setThread, same] at receives
    · simpa [Process.endThread, setThread, same] using receives
  exact inv.mono (fun _ => others) rfl fun _ _ => rfl

theorem ended_recvInv (inv : s.RecvInv) {o : Op} {e : Halt}
    (h : operate host self line o s = .error e) : e.Safe RecvInv :=
  fails_safe (fun id _ _ => inv.endThread id) h

/-- Only two operations are about the receive thread. -/
theorem aside_receives {id : Tid} {o : Op} {r : o.Res} (aside : o.group ≠ .receiver)
    (receives : s.Receives id) (h : operate host self line o s = .ok (r, t)) : t.Receives id := by
  obtain ⟨inv, handle⟩ := receives
  have same {w : World} (r : o.Res) (hstep : interp host (fun _ => .ok) o s.world = .ok (r, w))
      (written : .receiveHandle ∉ o.writes ∧ .joinable ∉ o.writes) (accepted : List MsgQ)
      (last : Option Text) :
      Receives id { s with world := w, accepted := accepted, last := last } := by
    have recorded : w.shared.thrRetReceiveId = _ := interp_frame (p := .receiveHandle) written.1 hstep
    have joinable : w.shared.joinable = _ := interp_frame (p := .joinable) written.2 hstep
    exact ⟨inv.mono (fun _ receives => receives) recorded fun i _ => congrFun joinable i,
      recorded.trans handle⟩
  cases o with
  | setRecThreadID => exact absurd rfl aside
  | pthreadKill i =>
    obtain rfl := operate_kill h
    exact ⟨inv, handle⟩
  | pthreadJoin i =>
    obtain ⟨-, rfl⟩ := operate_join h
    refine ⟨(inv.endThread i).mono (fun _ receives => receives) rfl fun j receives => ?_, handle⟩
    apply Function.update_of_ne
    rintro rfl
    simp [Process.endThread, setThread, setShared] at receives
  | pthreadCreate routine =>
    rcases operate_create h with ⟨-, rfl⟩ | ⟨i, -, fresh, -, rfl⟩
    · exact ⟨inv, handle⟩
    · let shared :=
        { s.world.shared.asked with joinable := Function.update s.world.shared.joinable i true }
      have old {j : Tid}
          (receives : (setThread i (some (.created line routine)) (s.setShared shared)).thread j =
            some .receive) : j ≠ i ∧ s.thread j = some .receive := by
        by_cases new : j = i
        · cases routine with
          | retReceive => exact absurd rfl aside
          | cmdSend | scriptCmdProcess => simp [setThread, new, Thread.created] at receives
        · exact ⟨new, by simpa [setThread, setShared, new] using receives⟩
      exact ⟨inv.mono (fun _ receives => (old receives).2) rfl fun j receives =>
        Function.update_of_ne (old receives).1 _ _, handle⟩
  | msgsnd m =>
    obtain ⟨w, hstep, rfl⟩ := operate_msgsnd h
    exact same r hstep (by simp [Op.writes]) _ _
  | _ =>
    obtain ⟨w, hstep, rfl⟩ := operate_still rfl h
    exact same r hstep (by simp [Op.writes]) _ _

theorem aside_leads {id : Tid} {α : Type} {p : Cmd α} {groups : List Group}
    (touches : p.Touches groups) (aside : .receiver ∉ groups) (receives : s.Receives id) :
    p.Leads (operate host self line) (Halt.Safe RecvInv) (fun _ => Receives id) s := by
  apply Prog.Only.leads _ _ touches receives
  · exact fun o u r v listed receives h =>
      aside_receives (fun same => aside (same ▸ listed)) receives h
  · exact fun o u e _ receives h => ended_recvInv receives.1 h

theorem aside_keeps {α : Type} {p : Cmd α} {groups : List Group} (touches : p.Touches groups)
    (aside : .receiver ∉ groups) (inv : s.RecvInv) :
    p.Leads (operate host self line) (Halt.Safe RecvInv) (fun _ => RecvInv) s :=
  (aside_leads touches aside ⟨inv, rfl⟩).mono fun _ _ receives => receives.1

theorem say_keeps (text : String) (inv : s.RecvInv) :
    (say text).Leads (operate host self line) (Halt.Safe RecvInv) (fun _ => RecvInv) s :=
  aside_keeps (say_touches text : (say text).Touches [.other]) (by decide) inv

theorem wrongParameter_keeps (cmdNum : Nat) (inv : s.RecvInv) :
    (wrongParameter cmdNum).Leads (operate host self line) (Halt.Safe RecvInv) (fun _ => RecvInv) s :=
  aside_keeps (wrongParameter_touches cmdNum : (wrongParameter cmdNum).Touches
    [.other]) (by decide) inv

theorem receives_none (receives : s.Receives 0) (id : Tid) : s.thread id ≠ some .receive := by
  intro receive
  obtain ⟨nonzero, same, -⟩ := receives.1 id receive
  exact nonzero (same.trans receives.2)

/-- A receive thread is created when none is recorded, and its handle recorded. -/
theorem createRec_receives (receives : s.Receives 0) :
    createRec.Leads (operate host self line) (Halt.Safe RecvInv) (fun _ => RecvInv) s := by
  have none' := receives_none receives
  apply Prog.Leads.bind_op
  · intro created t hcreate
    rcases operate_create hcreate with ⟨rfl, rfl⟩ | ⟨id, nonzero, fresh, rfl, rfl⟩
    · exact say_keeps _ receives.1
    · apply Prog.Leads.bind_op
      · intro _ u hset
        cases hset
        apply say_keeps _
        intro i receive
        by_cases same : i = id
        · subst same
          exact ⟨nonzero, rfl, Function.update_self _ _ _⟩
        · exact absurd (by simpa [setThread, setShared, same] using receive) (none' i)
      · exact fun _ => fails_safe fun _ _ kill => by cases kill
  · exact fun _ => ended_recvInv receives.1

theorem startAllRec_receives {recId : Tid} (receives : s.Receives recId) :
    (startAllRec recId).Leads (operate host self line) (Halt.Safe RecvInv) (fun _ => RecvInv) s := by
  apply Prog.Leads.ite
  · exact fun zero => createRec_receives (zero ▸ receives)
  · exact fun _ => say_keeps _ receives.1

/-- The handle is reset once the thread is gone. -/
theorem stopRec_receives {recId : Tid} (receives : s.Receives recId) :
    (stopRec recId).Leads (operate host self line) (Halt.Safe RecvInv) (fun _ => RecvInv) s := by
  apply Prog.Leads.ite
  · intro _
    apply Prog.Leads.bind_op
    · intro _ t hkill
      obtain rfl := operate_kill hkill
      apply Prog.Leads.bind_op
      · intro _ u hjoin
        have joined := aside_receives (o := .pthreadJoin recId) (by nofun) receives hjoin
        have none' (id : Tid) (receive : u.thread id = some .receive) : False := by
          have same := (joined.1 id receive).2.1.trans joined.2
          obtain ⟨-, rfl⟩ := operate_join hjoin
          simp [Process.endThread, setThread, same] at receive
        apply Prog.Leads.bind_op
        · intro _ v hset
          cases hset
          exact say_keeps _ fun id receive => (none' id receive).elim
        · exact fun _ => fails_safe fun _ _ kill => by cases kill
      · exact fun _ => ended_recvInv receives.1
    · exact fun _ => ended_recvInv receives.1
  · exact fun _ => receives.1

/-- An operation beside the receive thread comes first. -/
theorem aside_first {recId : Tid} {o : Op} {f : o.Res → Cmd Unit} (aside : o.group ≠ .receiver)
    (receives : s.Receives recId) (next : ∀ r t, t.Receives recId →
      (f r).Leads (operate host self line) (Halt.Safe RecvInv) (fun _ => RecvInv) t) :
    (Prog.op o .pure >>= f).Leads (operate host self line) (Halt.Safe RecvInv)
      (fun _ => RecvInv) s := by
  apply Prog.Leads.bind_op
  · exact fun r t h => next r t (aside_receives aside receives h)
  · exact fun _ => ended_recvInv receives.1

theorem start_receives (cmdNum : Nat) (inv : s.RecvInv) :
    (start cmdNum).Leads (operate host self line) (Halt.Safe RecvInv) (fun _ => RecvInv) s := by
  unfold start
  apply aside_first (by nofun) ⟨inv, rfl⟩
  intro gParamNum t receives
  apply Prog.Leads.ite (fun _ => wrongParameter_keeps cmdNum receives.1)
  intro _
  apply aside_first (by nofun) receives
  intro sendId t receives
  apply Prog.Leads.bind_op _ fun _ => ended_recvInv receives.1
  intro recId u hread
  obtain ⟨rfl, rfl⟩ := operate_getRecThreadID hread
  replace receives : u.Receives u.world.shared.thrRetReceiveId := ⟨receives.1, rfl⟩
  generalize u.world.shared.thrRetReceiveId = recId at receives
  apply aside_first (by nofun) receives
  intro mode t receives
  apply Prog.Leads.ite
  · intro _
    apply Prog.Leads.ite (fun _ => say_keeps _ receives.1)
    exact fun zero => createRec_receives (not_not.mp zero ▸ receives)
  intro _
  apply aside_first (by nofun) receives
  intro opened t receives
  apply Prog.Leads.ite (fun _ => say_keeps _ receives.1)
  intro _
  apply aside_first (by nofun) receives
  intro key t receives
  apply Prog.Leads.ite (fun _ => say_keeps _ receives.1)
  intro _
  apply aside_first (by nofun) receives
  intro gMsgid t receives
  apply Prog.Leads.ite (fun _ => say_keeps _ receives.1)
  intro _
  apply aside_first (by nofun) receives
  intro _ t receives
  apply aside_first (by nofun) receives
  intro mode t receives
  apply Prog.Leads.ite
  · intro _
    apply Prog.Leads.ite
    · intro _
      apply aside_first (by nofun) receives
      intro created t receives
      cases created with
      | none => exact say_keeps _ receives.1
      | some id =>
        apply aside_first (by nofun) receives
        intro _ t receives
        apply aside_first (o := .print _) (by nofun) receives
        exact fun _ _ => startAllRec_receives
    · intro _
      apply aside_first (o := .print _) (by nofun) receives
      exact fun _ _ => startAllRec_receives
  · intro _
    apply Prog.Leads.ite
    · intro _
      apply Prog.Leads.ite (fun _ => say_keeps _ receives.1)
      intro _
      apply aside_first (by nofun) receives
      intro created t receives
      cases created with
      | none => exact say_keeps _ receives.1
      | some id =>
        apply aside_first (by nofun) receives
        exact fun _ _ receives => say_keeps _ receives.1
    · exact fun _ => wrongParameter_keeps cmdNum receives.1

theorem stop_receives (cmdNum : Nat) (inv : s.RecvInv) :
    (stop cmdNum).Leads (operate host self line) (Halt.Safe RecvInv) (fun _ => RecvInv) s := by
  unfold stop
  apply aside_first (by nofun) ⟨inv, rfl⟩
  intro sendId t receives
  apply Prog.Leads.bind_op _ fun _ => ended_recvInv receives.1
  intro recId u hread
  obtain ⟨rfl, rfl⟩ := operate_getRecThreadID hread
  replace receives : u.Receives u.world.shared.thrRetReceiveId := ⟨receives.1, rfl⟩
  generalize u.world.shared.thrRetReceiveId = recId at receives
  apply aside_first (by nofun) receives
  intro gParamNum t receives
  apply Prog.Leads.ite (fun _ => wrongParameter_keeps cmdNum receives.1)
  intro _
  apply aside_first (by nofun) receives
  intro mode t receives
  apply Prog.Leads.ite
  · intro _
    apply Prog.Leads.bind (aside_leads (stopSend_touches sendId) (by decide) receives)
    intro _ t receives
    apply Prog.Leads.bind (stopRec_receives receives)
    intro _ t inv
    apply Prog.Leads.bind (aside_keeps (each_only fun index => stopScript_touches index)
      (by decide) inv)
    intro _ t inv
    apply aside_first (by nofun) ⟨inv, rfl⟩
    exact fun _ _ receives => say_keeps _ receives.1
  intro _
  apply Prog.Leads.ite (fun _ => aside_keeps (stopSend_touches sendId) (by decide) receives.1)
  intro _
  apply Prog.Leads.ite (fun _ => stopRec_receives receives)
  intro _
  apply aside_first (by nofun) receives
  intro word t receives
  apply Prog.Leads.ite _ fun _ => wrongParameter_keeps cmdNum receives.1
  intro _
  apply aside_first (by nofun) receives
  intro number t receives
  apply Prog.Leads.ite (fun _ => say_keeps _ receives.1)
  intro _
  apply aside_first (by nofun) receives
  intro scId t receives
  apply Prog.Leads.ite (fun _ => .pure receives.1)
  intro _
  repeat (apply aside_first (by nofun) receives; intro _ _ receives)
  exact receives.1

theorem handle_recvInv (inv : s.RecvInv) (h : s.handle host self line = .ok t) : t.RecvInv := by
  obtain ⟨p, name, -, -, h⟩ := handle_dispatch h
  have start : RecvInv { s with world := { s.world with params := p } } := inv
  apply settle_leads _ h
  unfold dispatch
  cases getCmdCode name with
  | none => exact say_keeps _ start
  | some cmdNum =>
    dsimp only
    generalize (cmdEntry cmdNum).func = f
    have aside (apart : f ≠ .start ∧ f ≠ .stop) : .receiver ∉ f.groups := by
      cases f <;> simp [Func.groups] at apart ⊢
    by_cases starts : f = .start
    · subst starts
      exact start_receives cmdNum start
    by_cases stops : f = .stop
    · subst stops
      exact stop_receives cmdNum start
    · exact aside_keeps (f.run_touches cmdNum) (aside ⟨starts, stops⟩) start

theorem RecvInv.setThread (inv : s.RecvInv) (id : Tid) {thread : Thread} (other : thread ≠ .receive) :
    (s.setThread id (some thread)).RecvInv := by
  have old {i : Tid} (receives : (s.setThread id (some thread)).thread i = some .receive) :
      s.thread i = some .receive := by
    by_cases same : i = id
    · simp [Process.setThread, same, other] at receives
    · simpa [Process.setThread, same] using receives
  exact inv.mono (fun _ => old) rfl fun _ _ => rfl

theorem step_recvInv {e : ProcessEvent} (inv : s.Inv) (recv : s.RecvInv) (h : s.step host e = .ok t) :
    t.RecvInv := by
  cases e with
  | line self line =>
    simp only [step] at h
    split at h
    · exact handle_recvInv recv h
    · cases h
  | log id text =>
    simp only [step] at h
    split at h
    · exact settle_leads (aside_keeps (syslogProcess_touches text) (by decide) recv) h
    · cases h
  | advance id =>
    simp only [step] at h
    cases hthread : s.thread id with
    | none => simp [hthread] at h
    | some thread =>
      cases thread with
      | receive => simp [hthread] at h
      | send stage =>
        simp only [hthread, advanceSend] at h
        split at h
        · rename_i next shared gone hstep
          cases h
          obtain ⟨only, -⟩ := Sender.step_moves hstep
          have moved : (s.setShared shared).RecvInv := by
            rw [only]
            exact recv
          exact moved.setThread id (by simp)
        · cases h
      | script w =>
        simp only [hthread] at h
        have serves := inv.serves id w hthread
        rcases advanceScript_cases h with rfl | ⟨line, k, -, h⟩ | ⟨o, k, r, world, hrest, hstep, rfl⟩
        · exact recv.endThread id
        · exact handle_recvInv (recv.setThread id (by simp)) h
        · have written : .receiveHandle ∉ o.writes ∧ .joinable ∉ o.writes := by
            have allowed := (serves.op hrest).1
            cases o <;> first | exact allowed.elim | simp [Op.writes]
          have recorded : world.shared.thrRetReceiveId = _ :=
            interp_frame (p := .receiveHandle) written.1 hstep
          have joinable : world.shared.joinable = _ := interp_frame (p := .joinable) written.2 hstep
          have moved : RecvInv { s with world := world } :=
            recv.mono (fun _ receives => receives) recorded fun i _ => congrFun joinable i
          exact moved.setThread id (by simp)

/-! ## Handles -/

/-- The main thread is not ended by what it does. -/
theorem main_safe {I : Process → Prop} {o : Op} {e : Halt}
    (h : operate host none line o s = .error e) : e.Safe I :=
  fails_safe (fun _ main _ => by cases main) h

theorem operate_frame {p : Part} {o : Op} {r : o.Res} (unwritten : p ∉ o.writes)
    (h : operate host self line o s = .ok (r, t)) : p.Same s.world.shared t.world.shared := by
  cases o with
  | pthreadKill id =>
    obtain rfl := operate_kill h
    exact .refl _ p
  | pthreadJoin id =>
    obtain ⟨-, rfl⟩ := operate_join h
    cases p <;> first | rfl | simp [Op.writes] at unwritten
  | pthreadCreate routine =>
    rcases operate_create h with ⟨-, rfl⟩ | ⟨id, -, -, -, rfl⟩ <;>
      cases p <;> first | rfl | simp [Op.writes] at unwritten
  | msgsnd m =>
    obtain ⟨w, hstep, rfl⟩ := operate_msgsnd h
    exact interp_frame unwritten hstep
  | _ =>
    obtain ⟨w, hstep, rfl⟩ := operate_still rfl h
    exact interp_frame unwritten hstep

/-- The handles recorded, of the scripts as far as the list goes. -/
structure Cleared (slots : List Nat) (s : Process) : Prop where
  send : s.world.shared.thrCmdSendId = 0
  receive : s.world.shared.thrRetReceiveId = 0
  scripts : ∀ slot : Slot, (slot : Nat) ∈ slots → s.world.shared.scripts.thrScriptId slot = 0

theorem Cleared.mono {slots fewer : List Nat} (cleared : s.Cleared slots) (sub : fewer ⊆ slots) :
    s.Cleared fewer :=
  ⟨cleared.send, cleared.receive, fun slot listed => cleared.scripts slot (sub listed)⟩

theorem Cleared.frame {slots : List Nat} (cleared : s.Cleared slots) {o : Op} {r : o.Res}
    (aside : ∀ p ∈ o.writes, p ∈ [Part.joinable, .scriptNames])
    (h : operate host self line o s = .ok (r, t)) : t.Cleared slots := by
  have same (p : Part) (other : p ∉ [Part.joinable, .scriptNames]) :
      p.Same s.world.shared t.world.shared :=
    operate_frame (fun writes => other (aside p writes)) h
  have send : t.world.shared.thrCmdSendId = _ := same .sendHandle (by decide)
  have receive : t.world.shared.thrRetReceiveId = _ := same .receiveHandle (by decide)
  have scripts : t.world.shared.scripts.thrScriptId = _ := same .scriptHandles (by decide)
  exact ⟨send.trans cleared.send, receive.trans cleared.receive,
    fun slot listed => (congrFun scripts slot).trans (cleared.scripts slot listed)⟩

section StopAll

variable {I : Process → Prop}

theorem stopSend_clears :
    (stopSend s.world.shared.thrCmdSendId).Leads (operate host none line) (Halt.Safe I)
    (fun _ t => t.world.shared.thrCmdSendId = 0 ∧
      t.world.shared.thrRetReceiveId = s.world.shared.thrRetReceiveId) s := by
  apply Prog.Leads.ite
  · intro _
    apply Prog.Leads.bind_op _ fun _ => main_safe
    intro _ t hkill
    obtain rfl := operate_kill hkill
    apply Prog.Leads.bind_op _ fun _ => main_safe
    intro _ u hjoin
    obtain ⟨-, rfl⟩ := operate_join hjoin
    apply Prog.Leads.bind_op _ fun _ => main_safe
    intro _ v hset
    cases hset
    apply Prog.Leads.op _ fun _ => main_safe
    intro _ w hprint
    cases hprint
    exact ⟨rfl, rfl⟩
  · exact fun zero => ⟨not_not.mp zero, rfl⟩

theorem stopRec_clears (send : s.world.shared.thrCmdSendId = 0) :
    (stopRec s.world.shared.thrRetReceiveId).Leads (operate host none line) (Halt.Safe I)
      (fun _ => Cleared []) s := by
  apply Prog.Leads.ite
  · intro _
    apply Prog.Leads.bind_op _ fun _ => main_safe
    intro _ t hkill
    obtain rfl := operate_kill hkill
    apply Prog.Leads.bind_op _ fun _ => main_safe
    intro _ u hjoin
    obtain ⟨-, rfl⟩ := operate_join hjoin
    apply Prog.Leads.bind_op _ fun _ => main_safe
    intro _ v hset
    cases hset
    apply Prog.Leads.op _ fun _ => main_safe
    intro _ w hprint
    cases hprint
    exact ⟨send, rfl, by simp⟩
  · exact fun zero => ⟨send, not_not.mp zero, by simp⟩

theorem stopScript_clears {slots : List Nat} (cleared : s.Cleared slots) (index : Nat) :
    (stopScript index).Leads (operate host none line) (Halt.Safe I)
      (fun _ => Cleared (index :: slots)) s := by
  apply Prog.Leads.bind_op _ fun _ => main_safe
  intro scId t hread
  obtain ⟨slot, number, rfl, rfl⟩ := operate_getScriptThreadID hread
  obtain rfl : index = slot := by exact_mod_cast number
  apply Prog.Leads.ite
  · intro zero
    exact ⟨cleared.send, cleared.receive, Freed.cons cleared.scripts zero⟩
  · intro _
    apply Prog.Leads.bind_op _ fun _ => main_safe
    intro _ u hkill
    replace cleared := cleared.frame (by simp [Op.writes]) hkill
    apply Prog.Leads.bind_op _ fun _ => main_safe
    intro _ v hjoin
    replace cleared := cleared.frame (by simp [Op.writes]) hjoin
    apply Prog.Leads.op _ fun _ => main_safe
    intro _ w hset
    have freed := Freed.clear cleared.scripts hset
    obtain rfl := operate_setScriptThreadID hset
    exact ⟨cleared.send, cleared.receive, freed⟩

theorem stopScripts_clears {indices slots : List Nat} (cleared : s.Cleared slots) :
    (each indices stopScript).Leads (operate host none line) (Halt.Safe I)
      (fun _ => Cleared (indices.reverse ++ slots)) s := by
  induction indices generalizing s slots with
  | nil => exact cleared
  | cons index indices ih =>
    apply Prog.Leads.bind (stopScript_clears cleared index)
    intro _ t cleared
    simpa using ih cleared

/-- The handler with the argument `all`. -/
theorem stop_clears (cmdNum : Nat)
    (count : s.world.params.gParamNum = 1 ∨ s.world.params.gParamNum = 2)
    (all : s.world.params.param 1 = .ok paramAll) :
    (stop cmdNum).Leads (operate host none line) (Halt.Safe (Cleared (List.range 10)))
      (fun _ => Cleared (List.range 10)) s := by
  unfold stop
  apply Prog.Leads.bind_op _ fun _ => main_safe
  intro sendId t hread
  obtain ⟨rfl, rfl⟩ := operate_getSendThreadID hread
  apply Prog.Leads.bind_op _ fun _ => main_safe
  intro recId u hread
  obtain ⟨rfl, rfl⟩ := operate_getRecThreadID hread
  apply Prog.Leads.bind_op _ fun _ => main_safe
  intro gParamNum v hread
  obtain ⟨rfl, rfl⟩ := operate_paramNum hread
  apply Prog.Leads.ite
  · intro other
    omega
  intro _
  apply Prog.Leads.bind_op _ fun _ => main_safe
  intro mode w hread
  obtain ⟨read, rfl⟩ := operate_param hread
  obtain rfl : mode = paramAll := Except.ok.inj (read.symm.trans all)
  apply Prog.Leads.ite _ fun other => absurd rfl other
  intro _
  apply Prog.Leads.bind stopSend_clears
  rintro _ t ⟨send, receive⟩
  rw [← receive]
  apply Prog.Leads.bind (stopRec_clears send)
  intro _ u cleared
  apply Prog.Leads.bind (stopScripts_clears cleared)
  intro _ v cleared
  apply Prog.Leads.bind_op _ fun _ => main_safe
  intro _ w hinit
  replace cleared := cleared.frame (by simp [Op.writes]) hinit
  apply Prog.Leads.op _ fun _ => main_safe
  intro _ x hprint
  exact (cleared.frame (by simp [Op.writes]) hprint).mono (by simp)

end StopAll

/-! ## The end of the threads -/

/-- A line that reads `stop all`. -/
def StopsAll (line : Text) : Prop := ∃ argv name cmdNum, lineTokens line = some argv ∧
    argv.head? = some name ∧
  getCmdCode name = some cmdNum ∧ (cmdEntry cmdNum).func = .stop ∧
    (argv.length = 2 ∨ argv.length = 3) ∧
    argv[1]? = some paramAll

theorem handle_clears (all : StopsAll line) (h : s.handle host none line = .ok t) :
    t.Cleared (List.range 10) := by
  obtain ⟨argv, name, cmdNum, tokens, first, code, func, count, second⟩ := all
  apply settle_leads _ h
  unfold cmdProc
  apply Prog.Leads.bind_op _ fun _ => main_safe
  intro _ u hset
  obtain ⟨argv', p, tokens', loaded, rfl⟩ := operate_setParams hset
  obtain rfl := Option.some.inj (tokens.symm.trans tokens')
  have own (i : Nat) {token : Text} (hi : argv[i]? = some token) : p.param i = .ok token := by
    obtain ⟨inside, rfl⟩ := List.getElem?_eq_some_iff.mp hi
    exact loaded.own i inside
  apply Prog.Leads.bind_op _ fun _ => main_safe
  intro name' v hread
  obtain ⟨read, rfl⟩ := operate_param hread
  rw [List.head?_eq_getElem?] at first
  obtain rfl : name' = name := Except.ok.inj (read.symm.trans (own 0 first))
  unfold dispatch
  rw [code]
  dsimp only
  rw [func]
  apply stop_clears cmdNum _ (own 1 second)
  rw [loaded.count]
  omega

/-- Once the line `stop all` is done, in whatever state the threads were, only
scripts are left that have cleared their handle and have to exit. Every message
has left its sender or is in the queue. -/
theorem stop_all_ends (host : Host) (world : World) (run : List ProcessEvent)
    (line : Text) (s t : Process) (careful : Along (step host) (Careful host) run (idle world))
    (reached : runAll (step host) run (idle world) = .ok s)
    (all : StopsAll line) (done : s.step host (.line none line) = .ok t) :
    (∀ id thread, t.thread id = some thread → ∃ w, thread = .script w ∧ w.cleared = true) ∧
      t.accepted = t.disposed.map Prod.fst ++ t.world.shared.queue := by
  obtain ⟨⟨inv, tokens⟩, send, recv⟩ : (s.Inv ∧ s.Tokens) ∧ s.SendInv ∧ s.RecvInv := by
    apply Along.invariant (fun s => (s.Inv ∧ s.Tokens) ∧ s.SendInv ∧ s.RecvInv) _ _ careful reached
    · rintro e s t ⟨⟨inv, tokens⟩, send, recv⟩ careful h
      exact ⟨⟨step_inv inv tokens careful h, step_tokens inv tokens h⟩, step_sendInv send h,
        step_recvInv inv recv h⟩
    · exact ⟨⟨idle_inv world, idle_tokens world⟩, idle_sendInv world, fun id receives =>
        by simp [idle] at receives⟩
  have careful : Careful host (.line none line) s := by
    obtain ⟨argv, name, cmdNum, own, first, code, func, -⟩ := all
    have stops : lineFunc line = some .stop := by simp [lineFunc, own, first, commandFunc, code, func]
    exact careful_line (by simp [stops]) (by simp [stops])
  have inv' := step_inv inv tokens careful done
  have send' := step_sendInv send done
  have recv' := step_recvInv inv recv done
  have cleared : t.Cleared (List.range 10) :=
    handle_clears all (by simpa [step, mayProcess] using done)
  have gone {id : Tid} {stage : Sender} (lives : t.thread id = some (.send stage)) : False := by
    obtain ⟨nonzero, recorded, -⟩ := send'.sender id stage lives
    exact nonzero (recorded.trans cleared.send)
  constructor
  · intro id thread lives
    cases thread with
    | send stage => exact (gone lives).elim
    | receive =>
      obtain ⟨nonzero, recorded, -⟩ := recv' id lives
      exact absurd (recorded.trans cleared.receive) nonzero
    | script w =>
      refine ⟨w, rfl, ?_⟩
      by_contra uncleared
      obtain ⟨slot, -, recorded⟩ := inv'.owns id w lives (by simpa using uncleared)
      have zero := cleared.scripts slot (List.mem_range.mpr slot.isLt)
      exact (inv'.joinable id w lives).1 (recorded.symm.trans zero)
  · have place : t.accepted = t.disposed.map Prod.fst ++ (t.held ++ t.world.shared.queue) :=
      send'.place
    have nothing : t.held = [] := by
      unfold Process.held Process.heldBy
      split
      · rename_i stage lives
        exact (gone lives).elim
      · rfl
    rwa [nothing, List.nil_append] at place

section Sample

def startAllLine : Text := "start all".toList
def stopAllLine : Text := "stop all".toList
def firstCall : Text := "call 1 100".toList
def secondCall : Text := "call 2 7".toList

/-- The sender receives one of two messages. -/
def bothQueued : List ProcessEvent :=
  [.line none firstCall, .line none secondCall, .advance 4, .advance 4]

theorem bothQueued_careful :
    Along (step numberingHost) (Careful numberingHost) (.line none startAllLine :: bothQueued)
      sampleStart := by
  have searched : (step numberingHost (.line none startAllLine) sampleStart).toOption.all (fun s =>
      decide (Along (step numberingHost) (fun e s => s.plain e = true) bothQueued s)) = true := by
    decide +kernel
  refine ⟨careful_line (by decide +kernel) fun _ id w runs =>
    by simp [sampleStart, idle, Runs] at runs, fun s hs => ?_⟩
  have along : Along (step numberingHost) (fun e s => s.plain e = true) bothQueued s := by
    simpa [hs, Except.toOption] using searched
  exact along.guarantees (fun _ => True) (fun _ _ _ _ _ _ => trivial) (fun _ _ _ =>
    careful_of_plain) trivial

theorem stop_all_ends_bothQueued :
    ∃ s t, runAll (step numberingHost) (.line none startAllLine :: bothQueued) sampleStart = .ok s ∧
    s.step numberingHost (.line none stopAllLine) = .ok t ∧
    (∀ id thread, t.thread id = some thread → ∃ w, thread = .script w ∧ w.cleared = true) ∧
      t.accepted = t.disposed.map Prod.fst ++ t.world.shared.queue := by
  have found : (runAll (step numberingHost) (.line none startAllLine :: bothQueued)
    sampleStart).toOption.any (fun s =>
      (s.step numberingHost (.line none stopAllLine)).toOption.isSome) = true := by
    decide +kernel
  have all : StopsAll stopAllLine :=
    ⟨["stop".toList, "all".toList], "stop".toList, 16,
      by decide +kernel, rfl, by decide, by decide, .inl rfl, rfl⟩
  cases reached : runAll (step numberingHost) (.line none startAllLine :: bothQueued) sampleStart with
  | error f => simp [reached, Except.toOption] at found
  | ok s =>
    simp only [reached, Except.toOption, Option.any_some] at found
    cases done : s.step numberingHost (.line none stopAllLine) with
    | error f => simp [done] at found
    | ok t =>
      exact ⟨s, t, rfl, done, stop_all_ends numberingHost _ _ _ s t bothQueued_careful
        reached all done⟩

end Sample

end Process

end AutoTest
