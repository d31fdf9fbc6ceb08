import AutoTest.Process

/-!
# A start that creates no thread

`start` opens the queue and wipes the script names before it looks at its
argument and at the threads that run.

* `start_ends`: the four ways the handler can end.
* `start_idle_iff`: where a start without a thread leaves everything as it was.
-/

namespace AutoTest

open CString Strtok Program Cmd

/-- The script names, the queue and all handles are as before. -/
structure Shared.Undisturbed (s s' : Shared) : Prop where
  names : s'.scripts.gScriptName = s.scripts.gScriptName
  queueId : s'.gMsgid = s.gMsgid
  sender : s'.thrCmdSendId = s.thrCmdSendId
  receiver : s'.thrRetReceiveId = s.thrRetReceiveId
  handles : s'.scripts.thrScriptId = s.scripts.thrScriptId

/-- No thread is created, and nothing that has to be left alone is changed. -/
structure Shared.Idle (s s' : Shared) : Prop where
  joinable : s'.joinable = s.joinable
  undisturbed : s.Undisturbed s'

/-- No thread is created unless `made` holds, and then one is. -/
def Shared.Makes (made : Prop) (s s' : Shared) : Prop :=
  (¬ made → s.Idle s') ∧ (made → s'.joinable ≠ s.joinable)

/-- What the host answers when the next thread is asked for. -/
def Shared.offered (host : Host) (s : Shared) : Option Tid := (s.pthreadCreate host).1

/-- The state after `msgget` has given its answer. -/
def Shared.opened (host : Host) (s : Shared) : Shared :=
  { s with calls := s.calls + 3, gMsgid := host.msgget (s.calls + 2) }

/-- And after the script names are wiped. -/
def Shared.wiped (host : Host) (s : Shared) : Shared :=
  { s.opened host with scripts := s.scripts.gScriptParamInit }

/-- The handler gets as far as `msgget`. -/
def Opens (host : Host) (args : List Text) (s : Shared) : Prop :=
  args.length = 1 ∧ args ≠ [paramRec] ∧ host.openMsgFile s.calls ≠ AtStat.failed.toInt ∧
    host.ftok (s.calls + 1) ≠ -1

/-- The mode asks for a thread that does not run yet. -/
def Wants (args : List Text) (s : Shared) : Prop :=
  (args = [paramAll] ∧ (s.thrCmdSendId = 0 ∨ s.thrRetReceiveId = 0)) ∨
    (args = [paramTest] ∧ s.thrCmdSendId = 0)

/-- How the handler ends. -/
inductive StartEnds (host : Host) (args : List Text) (s s' : Shared) : Prop where
  | early (opens : ¬ Opens host args s) (ends : ∃ made, s.Makes made s')
  | noQueue (opens : Opens host args s) (refused : host.msgget (s.calls + 2) = -1)
      (idle : (s.opened host).Idle s')
  | wiped (opens : Opens host args s) (queue : host.msgget (s.calls + 2) ≠ -1)
      (makes : (s.wiped host).Makes (Wants args s ∧ (s.wiped host).offered host ≠ none) s')

section Run

variable {host : Host} {callee : Text → World → Except Fault World} {w : World}

theorem offered_congr {s s' : Shared} (calls : s'.calls = s.calls)
    (joinable : s'.joinable = s.joinable) : s'.offered host = s.offered host := by
  unfold Shared.offered Shared.pthreadCreate
  rw [calls, joinable]
  split
  · rfl
  · split <;> rfl

/-- The handler returns, in such a state. -/
abbrev Returns {α : Type} (host : Host) (callee : Text → World → Except Fault World)
    (p : Cmd α) (w : World) (post : Shared → Prop) : Prop :=
  p.Leads (interp host callee) (fun _ => False) (fun _ w' => post w'.shared) w

theorem print_returns (t : Text) : Returns host callee (Cmd.print t) w w.shared.Idle :=
  ⟨rfl, rfl, rfl, rfl, rfl, rfl⟩

theorem wrongParameter_returns (cmdNum : Nat) :
    Returns host callee (wrongParameter cmdNum) w w.shared.Idle :=
  ⟨rfl, rfl, rfl, rfl, rfl, rfl⟩

theorem create_returns {routine : Routine} {f : Option Tid → Cmd Unit} {Q : Shared → Prop}
    (refused : w.shared.offered host = none →
      Returns host callee (f none) { w with shared := w.shared.asked } Q)
    (created : ∀ id s, w.shared.joinable id = false → w.shared.offered host = some id →
      s.joinable = Function.update w.shared.joinable id true →
      Returns host callee (f (some id)) { w with shared := s } Q) :
    Returns host callee (Cmd.pthreadCreate routine >>= f) w Q := by
  rcases w.shared.pthreadCreate_cases host with taken | ⟨id, -, fresh, given⟩
  · apply Prog.Leads.now (r := (none : Option Tid)) (t := { w with shared := w.shared.asked })
    · simp only [interp, sharedStep, taken]
    · exact refused (by rw [Shared.offered, taken])
  · apply Prog.Leads.now (r := some id)
    · simp only [interp, sharedStep, given]
      rfl
    · exact created id _ fresh (by rw [Shared.offered, given]) rfl

theorem createRec_returns :
    Returns host callee createRec w (w.shared.Makes (w.shared.offered host ≠ none)) := by
  apply create_returns
  · intro refused
    exact ⟨fun _ => ⟨rfl, rfl, rfl, rfl, rfl, rfl⟩, fun made => absurd refused made⟩
  · intro id s fresh given joinable
    apply Prog.Leads.now rfl
    refine ⟨fun idle => absurd (by simp [given]) idle, fun _ same => ?_⟩
    have new : s.joinable id = true := by simp [joinable]
    have old : s.joinable id = w.shared.joinable id := congrFun same id
    simp [new, fresh] at old

theorem startAllRec_returns (recId : Tid) : Returns host callee (startAllRec recId) w
    (w.shared.Makes (recId = 0 ∧ w.shared.offered host ≠ none)) := by
  apply Prog.Leads.ite
  · intro idle
    apply createRec_returns.mono
    rintro - t ⟨stays, makes⟩
    exact ⟨fun h => stays fun offered => h ⟨idle, offered⟩, fun h => makes h.2⟩
  · intro running
    exact ⟨fun _ => ⟨rfl, rfl, rfl, rfl, rfl, rfl⟩, fun h => absurd h.1 running⟩

/-- A thread that was created is still there after the second one is tried. -/
theorem startAllRec_keeps {id : Tid} (joinable : w.shared.joinable id = true) (recId : Tid) :
    Returns host callee (startAllRec recId) w (fun s => s.joinable id = true) := by
  apply Prog.Leads.ite
  · intro idle
    apply create_returns (Q := fun s => s.joinable id = true)
    · intro refused
      exact joinable
    · intro id' s fresh given now
      have kept : s.joinable id = true := by simp [now, Function.update_apply, joinable]
      exact kept
  · intro running
    exact joinable

theorem startSend_returns {rest : Cmd Unit}
    (keeps : ∀ id w, w.shared.joinable id = true →
      Returns host callee rest w (fun s => s.joinable id = true)) :
    Returns host callee (startSend rest) w (w.shared.Makes (w.shared.offered host ≠ none)) := by
  apply create_returns
  · intro refused
    exact ⟨fun _ => ⟨rfl, rfl, rfl, rfl, rfl, rfl⟩, fun made => absurd refused made⟩
  · intro id s fresh given now
    apply Prog.Leads.now rfl
    have new : s.joinable id = true := by simp [now]
    apply (keeps id { w with shared := { s with thrCmdSendId := id } } new).mono
    intro _ t kept
    refine ⟨fun idle => absurd (by simp [given]) idle, fun _ same => ?_⟩
    simp [same, fresh] at kept

theorem startMode_returns {cmdNum : Nat} {mode : Text} {sendId recId : Tid}
    (hsend : w.shared.thrCmdSendId = sendId)
    (hrec : w.shared.thrRetReceiveId = recId) (hmode : w.params.param 1 = .ok mode) :
    Returns host callee (startMode cmdNum sendId recId) w
      (w.shared.Makes (Wants [mode] w.shared ∧ w.shared.offered host ≠ none)) := by
  have none_made {p : Cmd Unit} {c : Prop} (hc : ¬ c) (hp : Returns host callee p w w.shared.Idle) :
      Returns host callee p w (w.shared.Makes c) :=
    hp.mono fun _ _ idle => ⟨fun _ => idle, fun h => absurd h hc⟩
  have tests : paramTest ≠ paramAll := by decide
  apply Prog.Leads.now (r := mode) (t := w)
  · simp only [interp, hmode, reading]
  apply Prog.Leads.ite
  · rintro rfl
    apply Prog.Leads.ite
    · intro idle
      apply (startSend_returns _).mono
      · rintro - t ⟨stays, makes⟩
        refine ⟨fun h => stays fun offered => h ⟨.inl ⟨rfl, .inl (hsend.trans idle)⟩, offered⟩,
          fun h => makes h.2⟩
      · intro id v joinable
        apply Prog.Leads.now rfl
        apply startAllRec_keeps
        exact joinable
    · intro running
      apply Prog.Leads.now rfl
      have same (out : List Text) : ({ w.shared with out := out } : Shared).offered host =
          w.shared.offered host :=
        offered_congr rfl rfl
      apply (startAllRec_returns recId).mono
      rintro - t ⟨stays, makes⟩
      constructor
      · intro h
        obtain ⟨joinable, names, queueId, sender, receiver, handles⟩ := stays (by
          rintro ⟨idle, offered⟩
          exact h ⟨.inl ⟨rfl, .inr (hrec.trans idle)⟩, fun refused =>
            offered ((same _).trans refused)⟩)
        exact ⟨joinable, names, queueId, sender, receiver, handles⟩
      · rintro ⟨wants, offered⟩
        rcases wants with ⟨-, send | rec⟩ | ⟨test, -⟩
        · exact absurd (hsend.symm.trans send) running
        · exact makes ⟨hrec.symm.trans rec, fun refused => offered ((same _).symm.trans refused)⟩
        · exact absurd test (by decide)
  · intro other
    apply Prog.Leads.ite
    · rintro rfl
      apply Prog.Leads.ite
      · intro running
        apply none_made _ (print_returns _)
        rintro ⟨⟨all, -⟩ | ⟨-, idle⟩, -⟩
        · exact absurd all (by decide)
        · exact running (hsend.symm.trans idle)
      · intro idle
        have idle : sendId = 0 := by simpa using idle
        apply (startSend_returns _).mono
        · rintro - t ⟨stays, makes⟩
          refine ⟨fun h => stays fun offered => h ⟨.inr ⟨rfl, hsend.trans idle⟩, offered⟩,
            fun h => makes h.2⟩
        · intro id v joinable
          exact joinable
    · intro unknown
      apply none_made _ (wrongParameter_returns cmdNum)
      rintro ⟨⟨all, -⟩ | ⟨test, -⟩, -⟩
      · exact other (by simpa using all)
      · exact unknown (by simpa using test)

/-- The answers of the host decide where the handler ends. -/
theorem start_ends {cmdNum : Nat} {args : List Text} (hcount : w.params.gParamNum = args.length)
    (hmode : ∀ mode, args = [mode] → w.params.param 1 = .ok mode) :
    Returns host callee (start cmdNum) w (StartEnds host args w.shared) := by
  apply Prog.Leads.now rfl
  apply Prog.Leads.ite
  · intro wrong
    apply (wrongParameter_returns cmdNum).mono
    intro _ t idle
    apply StartEnds.early
    · rintro ⟨one, -⟩
      simp only [hcount, one] at wrong
      omega
    · exact ⟨False, fun _ => idle, False.elim⟩
  intro right
  obtain ⟨mode, rfl⟩ : ∃ mode, args = [mode] := by
    apply List.length_eq_one_iff.mp
    simp only [hcount] at right
    omega
  have hmode := hmode mode rfl
  apply Prog.Leads.now rfl
  apply Prog.Leads.now rfl
  apply Prog.Leads.now (r := mode) (t := w)
  · simp only [interp, hmode, reading]
  apply Prog.Leads.ite
  · rintro rfl
    have opens : ¬ Opens host [paramRec] w.shared := fun opens => opens.2.1 rfl
    apply Prog.Leads.ite
    · intro running
      exact .early opens ⟨False, fun _ => ⟨rfl, rfl, rfl, rfl, rfl, rfl⟩, False.elim⟩
    · intro idle
      exact createRec_returns.mono fun _ t makes => .early opens ⟨_, makes⟩
  intro notRec
  apply Prog.Leads.now rfl
  apply Prog.Leads.ite
  · intro refused
    apply StartEnds.early
    · exact fun opens => opens.2.2.1 refused
    · exact ⟨False, fun _ => ⟨rfl, rfl, rfl, rfl, rfl, rfl⟩, False.elim⟩
  intro opened
  apply Prog.Leads.now rfl
  apply Prog.Leads.ite
  · intro refused
    apply StartEnds.early
    · exact fun opens => opens.2.2.2 refused
    · exact ⟨False, fun _ => ⟨rfl, rfl, rfl, rfl, rfl, rfl⟩, False.elim⟩
  intro key
  have opens : Opens host [mode] w.shared := ⟨rfl, by simpa using notRec, opened, key⟩
  apply Prog.Leads.now rfl
  apply Prog.Leads.ite
  · intro refused
    exact .noQueue opens refused ⟨rfl, rfl, rfl, rfl, rfl, rfl⟩
  intro queue
  apply Prog.Leads.now rfl
  apply (startMode_returns (w := { w with shared := w.shared.wiped host }) rfl rfl hmode).mono
  intro _ t makes
  exact .wiped opens queue makes

end Run

/-! ## Idle starts -/

/-- The start returns, and without a thread it leaves everything as it was. -/
def IdleKeeps (host : Host) (depth : Nat) (l : CmdLine .start) (w : World) : Prop :=
  ∃ w', exec host (depth + 1) l.line w = .ok w' ∧
    (w'.shared.joinable = w.shared.joinable → w.shared.Undisturbed w'.shared)

/-- `msgget` gives the queue there was before, or fails as before, and no script
name is wiped. -/
def SameQueue (host : Host) (s : Shared) : Prop :=
  host.msgget (s.calls + 2) = s.gMsgid ∧
    (host.msgget (s.calls + 2) = -1 ∨ s.scripts.gScriptName = fun _ => [])

section Idle

variable {host : Host} {w : World}

theorem exec_start (host : Host) (depth : Nat) (l : CmdLine .start) (w : World) :
    ∃ w', exec host (depth + 1) l.line w = .ok w' ∧ StartEnds host l.args w.shared w'.shared := by
  apply exec_leads
  apply l.leads
  intro p loaded
  apply start_ends
  · exact l.found_count _ p loaded
  · intro mode one
    exact l.found_arg (by simp [one]) _ p loaded

/-- What the end of the handler says about a start without a thread. -/
theorem StartEnds.undisturbed_iff {args : List Text} {s s' : Shared}
    (ends : StartEnds host args s s') :
    (s'.joinable = s.joinable → s.Undisturbed s') ↔
      (Opens host args s → SameQueue host s ∨ (host.msgget (s.calls + 2) ≠ -1 ∧
        Wants args s ∧ (s.wiped host).offered host ≠ none)) := by
  cases ends with
  | early opens ends =>
    obtain ⟨made, stays, makes⟩ := ends
    apply iff_of_true
    · intro same
      exact (stays fun h => makes h same).undisturbed
    · exact fun h => absurd h opens
  | noQueue opens refused idle =>
    have queueId : s'.gMsgid = host.msgget (s.calls + 2) := idle.undisturbed.queueId
    constructor
    · intro keeps _
      have kept := (keeps idle.joinable).queueId
      exact .inl ⟨queueId.symm.trans kept, .inl refused⟩
    · intro exact _
      rcases exact opens with ⟨same, -⟩ | ⟨queue, -⟩
      · obtain ⟨names, -, sender, receiver, handles⟩ := idle.undisturbed
        exact ⟨names, queueId.trans same, sender, receiver, handles⟩
      · exact absurd refused queue
  | wiped opens queue makes =>
    by_cases made : Wants args s ∧ (s.wiped host).offered host ≠ none
    · apply iff_of_true
      · intro same
        exact absurd same (makes.2 made)
      · exact fun _ => .inr ⟨queue, made⟩
    · obtain ⟨joinable, names, queueId, sender, receiver, handles⟩ := makes.1 made
      constructor
      · intro keeps _
        have kept := keeps joinable
        exact .inl ⟨queueId.symm.trans kept.queueId, .inr (kept.names.symm.trans names)⟩
      · intro exact _
        rcases exact opens with ⟨same, failed | empty⟩ | ⟨-, other⟩
        · exact absurd failed queue
        · exact ⟨names.trans empty.symm, queueId.trans same, sender, receiver, handles⟩
        · exact absurd other made

theorem start_idle_iff (host : Host) (depth : Nat) (l : CmdLine .start) (w : World) :
    IdleKeeps host depth l w ↔
      (Opens host l.args w.shared →
        SameQueue host w.shared ∨ (host.msgget (w.shared.calls + 2) ≠ -1 ∧
          Wants l.args w.shared ∧ (w.shared.wiped host).offered host ≠ none)) := by
  obtain ⟨w', hrun, ends⟩ := exec_start host depth l w
  rw [← ends.undisturbed_iff]
  constructor
  · rintro ⟨v, hv, keeps⟩
    obtain rfl := Except.ok.inj (hrun.symm.trans hv)
    exact keeps
  · intro keeps
    exact ⟨w', hrun, keeps⟩

end Idle

def startTest : CmdLine .start where
  line := "start test".toList
  name := "start".toList
  args := [paramTest]
  cmdNum := 15
  tokens := by decide +kernel
  code := by decide
  func := rfl

def startHost : Host := .willing (fun n => n + 3) (fun n => some (n + 1)) fun _ => none

/-- The test mode runs, and slot 1 has the name of its script. -/
def afterStart : Except Fault World :=
  runAll (exec startHost 1) ["start test".toList, "runScript 1 f".toList] ⟨.initial,
    .initial fun _ => none⟩

/-- `start test` while the test mode runs wipes the name of the script. -/
theorem startTest_wipes : ¬ ∀ w, afterStart = .ok w → IdleKeeps startHost 0 startTest w := by
  intro keeps
  have found : (afterStart.toOption.map fun w =>
      (w.shared.scripts.gScriptName 1, w.shared.thrCmdSendId)) = some ("f".toList, 4) := by
    decide +kernel
  cases reached : afterStart with
  | error f => simp [reached, Except.toOption] at found
  | ok w =>
    simp only [reached, Except.toOption, Option.map_some, Option.some.injEq, Prod.mk.injEq] at found
    obtain ⟨w', hrun, ends⟩ := exec_start startHost 0 startTest w
    obtain ⟨v, hv, undisturbed⟩ := keeps w reached
    obtain rfl := Except.ok.inj (hrun.symm.trans hv)
    have opens : Opens startHost startTest.args w.shared := by
      refine ⟨rfl, by decide, ?_, ?_⟩ <;> simp [startHost, Host.willing, AtStat.toInt]
    rcases ends.undisturbed_iff.mp undisturbed opens with ⟨-, refused | empty⟩ | ⟨-, wants, -⟩
    · simp [startHost, Host.willing] at refused
    · simp [empty] at found
    · rcases wants with ⟨all, -⟩ | ⟨-, idle⟩
      · exact absurd all (by decide)
      · rw [found.2] at idle
        cases idle

end AutoTest
