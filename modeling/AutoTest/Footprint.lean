import AutoTest.Script
import AutoTest.Syslog
import AutoTest.Tokens

/-!
# What a handler can touch

Each operation belongs to a group, by the shared state it works on. A handler
performs operations of a few groups only, so a property that those groups keep
needs no walk through the handler.

* `Op.group`, `Func.groups`: the groups of an operation and of a handler.
* `Func.run_touches`: a handler stays within its groups.
* `scriptCmdProcess_touches`: so does a script thread.
-/

namespace AutoTest

open CString Program Cmd

inductive Group where
  /-- a read, an output, a call of the host or a fault other than the next -/
  | other
  /-- a text longer than the array of the handler it is written to -/
  | overflow
  | tokens
  | nested
  | lock
  /-- the name of the last configuration file is printed -/
  | config
  /-- a write to the client registry -/
  | registry
  /-- the handle of the sender and its start -/
  | sender
  | receiver
  /-- the handles of the script threads and their start -/
  | script
  /-- names, buffers and counts of the script slots -/
  | tables
  /-- the counts of calls -/
  | calls
  /-- the end of another thread -/
  | ends
  | exit
  deriving DecidableEq, Repr

def Op.group : Op → Group
  | .fault .overflow => .overflow
  | .setParams _ | .paramNum | .param _ | .getTokens _ _ => .tokens
  | .call _ => .nested
  | .lock | .unlock => .lock
  | .printConfFileName => .config
  | .setClientFlag _ _ | .setClientIpAddr _ _ | .closeSocket _ | .delClientSockAddr _
  | .networkConfig _ _ | .changeClientAddr _ _ => .registry
  | .setSendThreadID _ | .pthreadCreate .cmdSend => .sender
  | .setRecThreadID _ | .pthreadCreate .retReceive => .receiver
  | .setScriptThreadID _ _ | .pthreadCreate .scriptCmdProcess => .script
  | .gScriptParamInit | .setScriptName _ _ | .setCountOfScriptRun _ _ | .mallocScript _
  | .copyScript _ _ | .freeScript _ => .tables
  | .setCountOfSuccessCall _ _ _ => .calls
  | .pthreadKill _ | .pthreadJoin _ => .ends
  | .pthreadExit => .exit
  | _ => .other

abbrev Cmd.Touches {α : Type} (groups : List Group) (p : Cmd α) : Prop :=
  p.Only fun o : Op => o.group ∈ groups

def Func.groups : Func → List Group
  | .showHelp | .look => [.other]
  | .autoConfig => [.other, .tokens, .nested]
  | .addClient | .delClient | .changeClientIpAddr => [.other, .tokens, .lock, .registry]
  | .showClient => [.other, .tokens, .lock, .config]
  | .call | .delay | .ioevt | .randomTime | .syslogConf | .hideFeatureProc => [.other, .tokens]
  | .randomKey => [.other, .tokens, .nested, .overflow]
  | .start => [.other, .tokens, .sender, .receiver, .tables]
  | .stop => [.other, .tokens, .sender, .receiver, .script, .tables, .ends]
  | .quit => [.other, .overflow, .ends]
  | .runScript => [.other, .tokens, .script, .tables]

/-- The groups that no handler without threads needs. -/
def threadGroups : List Group := [.sender, .receiver, .script, .tables, .ends, .exit]

theorem Op.calm_of_group {o : Op} (h : o.group ∉ threadGroups) : o.Calm := by
  cases o with
  | pthreadCreate routine => cases routine <;> simp [Op.group, threadGroups] at h
  | _ => first | trivial | simp [Op.group, threadGroups] at h

theorem Op.call_of_group {o : Op} (h : o.group = .nested) : ∃ line, o = .call line := by
  cases o with
  | call line => exact ⟨line, rfl⟩
  | fault f => cases f <;> cases h
  | pthreadCreate routine => cases routine <;> cases h
  | _ => cases h

section Parts

variable {α : Type} {groups : List Group}

theorem second_mem {a b : Group} : b ∈ a :: b :: groups := .tail _ (.head _)

theorem third_mem {a b c : Group} : c ∈ a :: b :: c :: groups := .tail _ second_mem

theorem fourth_mem {a b c d : Group} : d ∈ a :: b :: c :: d :: groups := .tail _ third_mem

theorem Cmd.Touches.mono {p : Cmd α} {more : List Group} (h : p.Touches groups)
    (sub : groups ⊆ more) :
    p.Touches more := Prog.Only.mono (fun _ ho => sub ho) h

theorem Cmd.Touches.calm {p : Cmd α} (h : p.Touches groups)
    (beside : ∀ g ∈ groups, g ∉ threadGroups) :
    p.Only Op.Calm := Prog.Only.mono (fun _ ho => Op.calm_of_group (beside _ ho)) h

theorem fault_touches {f : Fault} (h : (Op.fault f).group ∈ groups) :
    (Cmd.fault f : Cmd α).Touches groups :=
  ⟨h, fun r => r.elim⟩

theorem print_touches (t : Text) : (Cmd.print t).Touches (.other :: groups) :=
  ⟨.head _, fun _ => trivial⟩

theorem say_touches (s : String) : (say s).Touches (.other :: groups) := print_touches _

theorem snprintf_touches (size : Nat) (fmt : Text) :
    (Cmd.snprintf size fmt).Touches (.other :: groups) := by
  unfold Cmd.snprintf
  split
  · trivial
  · exact fault_touches (.head _)

theorem cmdCode_touches (cmdNum : Nat) (typed : Text) :
    (cmdCode cmdNum typed).Touches (.other :: groups) :=
  .ite (fun _ => snprintf_touches _ _) fun _ => snprintf_touches _ _

theorem wrongParameter_touches (cmdNum : Nat) : (wrongParameter cmdNum).Touches (.other :: groups) :=
  .bind (say_touches _) fun _ => print_touches _

theorem msgsndOrSay_touches (m : MsgQ) (failure : String) :
    (msgsndOrSay m failure).Touches (.other :: groups) :=
  ⟨.head _, fun _ => .ite (fun _ => say_touches _) fun _ => trivial⟩

end Parts

/-! ## Handlers without threads -/

section Handlers

variable (cmdNum : Nat)

theorem showHelp_touches : showHelp.Touches [.other] :=
  each_only fun _ => .ite (fun _ => print_touches _) fun _ => trivial

theorem autoConfig_touches : (autoConfig cmdNum).Touches [.other, .tokens, .nested] := by
  have lines (line : Text) : (autoConfigLine line).Touches [.other, .tokens, .nested] := by
    unfold autoConfigLine
    refine .ite (fun _ => trivial) fun _ => ?_
    cases scriptLine line with
    | none => exact say_touches _
    | some line => exact ⟨third_mem, fun _ => trivial⟩
  unfold autoConfig
  refine .bind_op second_mem fun _ => .ite (fun _ => wrongParameter_touches cmdNum) fun _ => ?_
  refine .bind_op second_mem fun typed => .bind (snprintf_touches _ _) fun name => ?_
  refine .bind_op (.head _) fun _ => .bind_op (.head _) fun opened => ?_
  cases opened with
  | none => trivial
  | some file => exact .bind (each_only lines) fun _ => ⟨.head _, fun _ => trivial⟩

theorem addClient_touches : (addClient cmdNum).Touches [.other, .tokens, .lock, .registry] := by
  have write : Group.registry ∈ [Group.other, .tokens, .lock, .registry] := by decide
  unfold addClient
  refine .bind_op second_mem fun _ => .ite (fun _ => wrongParameter_touches cmdNum) fun _ => ?_
  refine .bind_op second_mem fun _ => .bind_op second_mem fun _ => ?_
  refine .bind_op third_mem fun _ => .bind_op (.head _) fun _ => .bind_op third_mem fun _ => ?_
  refine .ite (fun _ => say_touches _) fun _ => .bind_op write fun _ => ?_
  refine .ite (fun _ => print_touches _) fun _ => .bind_op third_mem fun _ => ?_
  refine .bind_op write fun _ => .bind_op write fun _ => .bind_op third_mem fun _ => ?_
  exact say_touches _

theorem delClient_touches : (delClient cmdNum).Touches [.other, .tokens, .lock, .registry] := by
  have write : Group.registry ∈ [Group.other, .tokens, .lock, .registry] := by decide
  unfold delClient
  refine .bind_op second_mem fun _ => .bind_op second_mem fun _ => ?_
  apply Prog.Only.ite (fun _ => wrongParameter_touches cmdNum)
  intro _
  refine .bind_op third_mem fun _ => .bind_op (.head _) fun _ => .bind_op third_mem fun _ => ?_
  refine .ite (fun _ => print_touches _) fun _ => .bind_op third_mem fun _ => ?_
  refine .bind_op write fun _ => .bind_op write fun _ => .bind_op write fun _ => ?_
  exact .bind_op write fun _ => ⟨third_mem, fun _ => trivial⟩

theorem changeClientIpAddr_touches :
    (changeClientIpAddr cmdNum).Touches [.other, .tokens, .lock, .registry] := by
  have write : Group.registry ∈ [Group.other, .tokens, .lock, .registry] := by decide
  unfold changeClientIpAddr
  refine .bind_op second_mem fun _ => .ite (fun _ => wrongParameter_touches cmdNum) fun _ => ?_
  refine .bind_op second_mem fun _ => .bind_op second_mem fun _ => ?_
  refine .bind_op third_mem fun _ => .bind_op (.head _) fun _ => .bind_op third_mem fun _ => ?_
  refine .ite (fun _ => say_touches _) fun _ => .bind_op write fun _ => ?_
  refine .ite (fun _ => say_touches _) fun _ => .bind_op third_mem fun _ => ?_
  exact .bind_op write fun _ => .bind_op third_mem fun _ => say_touches _

theorem showClient_touches : (showClient cmdNum).Touches [.other, .tokens, .lock, .config] := by
  have clients (index : Nat) : (showClientEntry index).Touches [.other, .tokens, .lock, .config] := by
    unfold showClientEntry
    refine .bind (print_touches _) fun _ => .bind_op third_mem fun _ =>
      .bind_op (.head _) fun stat => ?_
    refine .bind_op third_mem fun _ => .ite (fun _ => say_touches _) fun _ => ?_
    exact .bind_op (.head _) fun _ => print_touches _
  have scripts (index : Nat) : (showScriptEntry index).Touches [.other, .tokens, .lock, .config] := by
    unfold showScriptEntry
    refine .bind (print_touches _) fun _ => .bind_op (.head _) fun id => ?_
    exact .ite (fun _ => say_touches _) fun _ => .bind_op (.head _) fun _ => print_touches _
  have shown : Cmd.Touches [.other, .tokens, .lock, .config] (do
      printConfFileName
      say "client Parameter:\n"
      Cmd.each (List.range 10) showClientEntry
      say "script Parameter:\n"
      Cmd.each (List.range 10) showScriptEntry) := by
    generalize List.range 10 = entries
    refine .bind_op fourth_mem fun _ => .bind (say_touches _) fun _ => ?_
    exact .bind (each_only clients) fun _ => .bind (say_touches _) fun _ => each_only scripts
  unfold showClient
  refine .bind_op second_mem fun _ => .ite (fun _ => ?_) fun _ => shown
  exact .bind (say_touches _) fun _ => .bind (print_touches _) fun _ => shown

section Messages

theorem ioevt_touches : (ioevt cmdNum).Touches [.other, .tokens] := by
  unfold ioevt
  refine .bind_op second_mem fun _ => .ite (fun _ => wrongParameter_touches cmdNum) fun _ => ?_
  refine .bind_op second_mem fun _ => .ite (fun _ => wrongParameter_touches cmdNum) fun _ => ?_
  refine .bind_op second_mem fun _ => .ite (fun _ => say_touches _) fun _ => ?_
  refine .bind_op (.head _) fun _ => .ite (fun _ => say_touches _) fun _ => ?_
  refine .bind_op second_mem fun _ => .bind (cmdCode_touches cmdNum _) fun _ => ?_
  refine .bind_op second_mem fun _ => .ite (fun _ => trivial) fun _ => ?_
  refine .bind_op second_mem fun _ => .bind (snprintf_touches _ _) fun _ => ?_
  refine .bind_op second_mem fun _ => .bind (snprintf_touches _ _) fun _ => ?_
  refine .bind_op second_mem fun ioevtParam => .ite (fun _ => fault_touches (.head _)) fun _ => ?_
  cases keyCodes ioevtParam with
  | error k => exact print_touches _
  | ok codes => exact msgsndOrSay_touches _ _

theorem call_touches : (AutoTest.call cmdNum).Touches [.other, .tokens] := by
  unfold AutoTest.call
  refine .bind_op second_mem fun _ => .ite (fun _ => wrongParameter_touches cmdNum) fun _ => ?_
  refine .bind_op second_mem fun _ => .ite (fun _ => say_touches _) fun _ => ?_
  refine .bind_op (.head _) fun _ => .ite (fun _ => say_touches _) fun _ => ?_
  refine .bind_op second_mem fun _ => .bind (snprintf_touches _ _) fun _ => ?_
  refine .bind_op second_mem fun _ => .bind (snprintf_touches _ _) fun _ => ?_
  exact msgsndOrSay_touches _ _

theorem syslogConf_touches : (syslogConf cmdNum).Touches [.other, .tokens] := by
  unfold syslogConf
  refine .bind_op second_mem fun _ => .ite (fun _ => wrongParameter_touches cmdNum) fun _ => ?_
  refine .bind_op second_mem fun _ => .ite (fun _ => say_touches _) fun _ => ?_
  refine .bind_op (.head _) fun _ => .ite (fun _ => say_touches _) fun _ => ?_
  refine .bind_op second_mem fun _ => .bind (cmdCode_touches cmdNum _) fun _ => ?_
  refine .bind_op second_mem fun _ => .ite (fun _ => ?_) fun _ => ?_
  · refine .bind_op second_mem fun _ => .bind_op second_mem fun _ => .bind_op (.head _) fun _ => ?_
    exact msgsndOrSay_touches _ _
  · exact .bind_op second_mem fun _ => .bind_op (.head _) fun _ => msgsndOrSay_touches _ _

theorem hideFeatureProc_touches : (hideFeatureProc cmdNum).Touches [.other, .tokens] := by
  unfold hideFeatureProc
  refine .bind_op second_mem fun _ => .ite (fun _ => wrongParameter_touches cmdNum) fun _ => ?_
  refine .bind_op second_mem fun _ => .ite (fun _ => say_touches _) fun _ => ?_
  refine .bind_op (.head _) fun _ => .ite (fun _ => say_touches _) fun _ => ?_
  refine .bind_op second_mem fun _ => .bind (cmdCode_touches cmdNum _) fun _ => ?_
  exact .bind_op second_mem fun _ => .bind_op second_mem fun _ => msgsndOrSay_touches _ _

end Messages

theorem delay_touches : (delay cmdNum).Touches [.other, .tokens] := by
  unfold delay
  refine .bind_op second_mem fun _ => .ite (fun _ => wrongParameter_touches cmdNum) fun _ => ?_
  exact .bind_op second_mem fun _ => .ite (fun _ => ⟨.head _, fun _ => trivial⟩) fun _ => trivial

theorem randomTime_touches : (randomTime cmdNum).Touches [.other, .tokens] := by
  unfold randomTime
  refine .bind_op second_mem fun _ => .ite (fun _ => wrongParameter_touches cmdNum) fun _ => ?_
  refine .bind_op second_mem fun _ => .bind_op second_mem fun _ => ?_
  refine .ite (fun _ => wrongParameter_touches cmdNum) fun _ => .ite (fun _ => trivial) fun _ => ?_
  refine .bind_op (.head _) fun draws => ?_
  cases draws with
  | nil => exact fault_touches (.head _)
  | cons r rs =>
    generalize getRandValue _ _ r = delayTime
    exact .ite (fun _ => ⟨.head _, fun _ => trivial⟩) fun _ => trivial

theorem drawKey_touches {groups : List Group} (randomKeyNum : Int) (draws : List Nat) :
    (drawKey randomKeyNum draws).Touches (.other :: groups) := by
  induction draws generalizing randomKeyNum with
  | nil =>
    refine .ite (fun _ => fault_touches (.head _)) fun _ => .ite (fun _ => trivial) fun _ => ?_
    exact fault_touches (.head _)
  | cons r rs ih =>
    exact .ite (fun _ => fault_touches (.head _)) fun _ => .ite (fun _ => trivial) fun _ => ih _

theorem sprintf_touches {groups : List Group} (listed : .overflow ∈ groups) (size : Nat) (t : Text) :
    (Cmd.sprintf size t).Touches groups :=
  .ite (fun _ => trivial) fun _ => fault_touches listed

theorem randomKey_touches : (randomKey cmdNum).Touches [.other, .tokens, .nested, .overflow] := by
  have send (randomKeyNum : Int) (draws : List Nat) :
      (sendRandomKey randomKeyNum draws).Touches [.other, .tokens, .nested, .overflow] := by
    unfold sendRandomKey
    refine .ite (fun _ => say_touches _) fun _ => .bind (drawKey_touches _ _) fun index => ?_
    unfold callRandomKey
    refine .bind_op second_mem fun _ => .bind (sprintf_touches (by decide) _ _) fun _ => ?_
    exact ⟨third_mem, fun _ => ⟨.head _, fun _ => trivial⟩⟩
  unfold randomKey
  refine .bind_op second_mem fun _ => .ite (fun _ => wrongParameter_touches cmdNum) fun _ => ?_
  apply Prog.Only.bind_op (.head _)
  intro draws
  cases draws with
  | nil => exact fault_touches (.head _)
  | cons r rs =>
    dsimp only
    generalize getRandValue 0 maxKeyNum r = drawn
    exact send drawn rs

theorem look_touches : (look cmdNum).Touches [.other] := by
  have calls (j : Nat) : (lookCalls j).Touches [.other] :=
    .bind (print_touches _) fun _ => each_only fun i =>
      .bind_op (.head _) fun _ => .bind_op (.head _) fun _ => print_touches _
  have scripts (index : Nat) : (lookScript index).Touches [.other] := by
    refine .bind_op (.head _) fun tested => .ite (fun _ => ?_) fun _ => trivial
    exact .bind_op (.head _) fun _ => .bind_op (.head _) fun _ => print_touches _
  exact .bind (each_only calls) fun _ => each_only scripts

theorem syslogProcess_touches (log : Text) : (syslogProcess log).Touches
    [.other, .overflow, .lock, .registry, .calls] := by
  have registry : Group.registry ∈ [Group.other, .overflow, .lock, .registry, .calls] := by decide
  have calls : Group.calls ∈ [Group.other, .overflow, .lock, .registry, .calls] := by decide
  have count (type : Nat) (clientNum : Int) :
      (countCall type clientNum).Touches [.other, .overflow, .lock, .registry, .calls] :=
    .bind_op (.head _) fun _ => ⟨calls, fun _ => trivial⟩
  unfold syslogProcess
  cases getLogMsgIssueId log with
  | none => trivial
  | some issueId =>
    dsimp only
    cases getLogClientNum log with
    | error f => cases f <;> first | exact fault_touches (.head _) | exact fault_touches second_mem
    | ok clientNum =>
      refine .ite (fun _ => ?_) fun _ => trivial
      cases issueId with
      | suspend =>
        refine .bind_op third_mem fun _ => .bind_op registry fun _ => .bind_op registry fun _ => ?_
        exact .bind_op registry fun _ => .bind_op registry fun _ => ⟨third_mem, fun _ => trivial⟩
      | talkBuild => exact count 0 clientNum
      | talkConference => exact count 1 clientNum

/-! ## Handlers with threads -/

theorem createRec_touches : createRec.Touches [.other, .receiver] := by
  apply Prog.Only.bind_op second_mem
  intro created
  cases created with
  | none => exact say_touches _
  | some recId => exact .bind_op second_mem fun _ => say_touches _

theorem startAllRec_touches (recId : Tid) : (startAllRec recId).Touches [.other, .receiver] :=
  .ite (fun _ => createRec_touches) fun _ => say_touches _

theorem startSend_touches {groups : List Group} {rest : Cmd Unit} (other : .other ∈ groups)
    (sender : .sender ∈ groups) (h : rest.Touches groups) : (startSend rest).Touches groups := by
  refine .bind_op sender fun created => ?_
  cases created with
  | none => exact ⟨other, fun _ => trivial⟩
  | some id => exact .bind_op sender fun _ => h

theorem startMode_touches (sendId recId : Tid) :
    (startMode cmdNum sendId recId).Touches [.other, .tokens, .sender, .receiver] := by
  have receive : (startAllRec recId).Touches [.other, .tokens, .sender, .receiver] :=
    (startAllRec_touches recId).mono (by decide)
  refine .bind_op second_mem fun mode => .ite (fun _ => ?_) fun _ => .ite (fun _ => ?_) fun _ => ?_
  · refine .ite (fun _ => ?_) fun _ => .bind (say_touches _) fun _ => receive
    exact startSend_touches (.head _) third_mem (.bind (say_touches _) fun _ => receive)
  · exact .ite (fun _ => say_touches _) fun _ => startSend_touches (.head _) third_mem (say_touches _)
  · exact wrongParameter_touches cmdNum

theorem start_touches : (start cmdNum).Touches [.other, .tokens, .sender, .receiver, .tables] := by
  have tables : Group.tables ∈ [Group.other, .tokens, .sender, .receiver, .tables] := by decide
  unfold start
  refine .bind_op second_mem fun _ => .ite (fun _ => wrongParameter_touches cmdNum) fun _ => ?_
  refine .bind_op (.head _) fun sendId => .bind_op (.head _) fun recId =>
    .bind_op second_mem fun mode => ?_
  refine .ite (fun _ => .ite (fun _ => say_touches _) fun _ =>
    createRec_touches.mono (by decide)) fun _ => ?_
  refine .bind_op (.head _) fun _ => .ite (fun _ => say_touches _) fun _ => ?_
  refine .bind_op (.head _) fun _ => .ite (fun _ => say_touches _) fun _ => ?_
  refine .bind_op (.head _) fun _ => .ite (fun _ => say_touches _) fun _ => ?_
  exact .bind_op tables fun _ => (startMode_touches cmdNum sendId recId).mono (by decide)

/-- A thread is ended before its handle is cleared. -/
theorem stopSend_touches (sendId : Tid) : (stopSend sendId).Touches [.other, .sender, .ends] := by
  refine .ite (fun _ => ?_) fun _ => trivial
  exact .bind_op third_mem fun _ => .bind_op third_mem fun _ =>
    .bind_op second_mem fun _ => say_touches _

theorem stopRec_touches (recId : Tid) : (stopRec recId).Touches [.other, .receiver, .ends] := by
  refine .ite (fun _ => ?_) fun _ => trivial
  exact .bind_op third_mem fun _ => .bind_op third_mem fun _ =>
    .bind_op second_mem fun _ => say_touches _

theorem stopScript_touches (index : Nat) : (stopScript index).Touches [.other, .script, .ends] := by
  refine .bind_op (.head _) fun scId => .ite (fun _ => trivial) fun _ => ?_
  exact .bind_op third_mem fun _ => .bind_op third_mem fun _ => ⟨second_mem, fun _ => trivial⟩

theorem stop_touches : (stop cmdNum).Touches Func.stop.groups := by
  have script : Group.script ∈ Func.stop.groups := by decide
  have tables : Group.tables ∈ Func.stop.groups := by decide
  have ends : Group.ends ∈ Func.stop.groups := by decide
  have send (sendId : Tid) : (stopSend sendId).Touches Func.stop.groups :=
    (stopSend_touches sendId).mono (by decide)
  have receive (recId : Tid) : (stopRec recId).Touches Func.stop.groups :=
    (stopRec_touches recId).mono (by decide)
  have scripts (index : Nat) : (stopScript index).Touches Func.stop.groups :=
    (stopScript_touches index).mono (by decide)
  unfold stop
  refine .bind_op (.head _) fun sendId => .bind_op (.head _) fun recId =>
    .bind_op second_mem fun _ => ?_
  refine .ite (fun _ => wrongParameter_touches cmdNum) fun _ => .bind_op second_mem fun mode => ?_
  refine .ite (fun _ => ?_) fun _ => .ite (fun _ => send sendId) fun _ => ?_
  · refine .bind (send sendId) fun _ => .bind (receive recId) fun _ => ?_
    exact .bind (each_only scripts) fun _ => .bind_op tables fun _ => say_touches _
  refine .ite (fun _ => receive recId) fun _ => .bind_op second_mem fun word => ?_
  refine .ite (fun _ => .bind_op second_mem fun number => ?_) fun _ => wrongParameter_touches cmdNum
  refine .ite (fun _ => say_touches _) fun _ => .bind_op (.head _) fun scId => ?_
  refine .ite (fun _ => trivial) fun _ => .bind_op ends fun _ => .bind_op ends fun _ => ?_
  refine .bind_op second_mem fun _ => .bind_op script fun _ => .bind_op second_mem fun _ => ?_
  exact print_touches _

theorem noteClients_touches (j : Nat) (is : List Nat) (ret : Int) :
    (noteClients j is ret).Touches [.other, .overflow] := by
  induction is generalizing ret with
  | nil => trivial
  | cons i is ih =>
    apply Prog.Only.bind_op (.head _)
    intro tested
    apply Prog.Only.bind_op (.head _)
    intro count
    generalize callReport i tested count = report
    refine .bind (sprintf_touches second_mem _ report) fun tmp => .bind_op (.head _) fun ret => ?_
    exact .ite (fun _ => .bind (say_touches _) fun _ => ih ret) fun _ => ih ret

theorem noteCalls_touches (j : Nat) : (noteCalls j).Touches [.other, .overflow] := by
  unfold noteCalls
  generalize List.range 10 = clients
  exact .bind_op (.head _) fun ret => noteClients_touches j clients ret

theorem noteScript_touches (index : Nat) (tested count : Int) :
    (noteScript index tested count).Touches [.other, .overflow] := by
  unfold noteScript
  apply Prog.Only.bind_op (.head _)
  intro name
  generalize scriptReport name tested count = report
  exact .bind (sprintf_touches second_mem _ report) fun tmp => ⟨.head _, fun _ => trivial⟩

theorem noteScripts_touches (is : List Nat) (ret : Int) :
    (noteScripts is ret).Touches [.other, .overflow] := by
  induction is generalizing ret with
  | nil => trivial
  | cons i is ih =>
    refine .bind_op (.head _) fun id => .ite (fun _ => ih ret) fun _ => ?_
    refine .bind_op (.head _) fun tested => .bind_op (.head _) fun count => ?_
    exact .bind (noteScript_touches i tested count) ih

theorem quitEnd_touches (ret : Int) : (quitEnd ret).Touches [.other, .overflow] :=
  .bind_op (.head _) fun _ => .ite (fun _ => say_touches _) fun _ => say_touches _

theorem quitNote_touches : quitNote.Touches [.other, .overflow] := by
  unfold quitNote
  generalize List.range 10 = slots
  refine .bind_op (.head _) fun opened => .ite (fun _ => ?_) fun _ => fault_touches (.head _)
  refine .bind_op (.head _) fun tmp => .bind_op (.head _) fun _ => ?_
  refine .bind (noteCalls_touches 0) fun _ => .bind (noteCalls_touches 1) fun ret => ?_
  exact .bind (noteScripts_touches slots ret) quitEnd_touches

theorem quitSend_touches (sendId : Tid) : (quitSend sendId).Touches [.other, .ends] :=
  .ite (fun _ => .bind_op second_mem fun _ => .bind_op second_mem fun _ => say_touches _)
    fun _ => trivial

theorem quitRec_touches (recId : Tid) : (quitRec recId).Touches [.other, .ends] :=
  .ite (fun _ => .bind_op second_mem fun _ => .bind_op second_mem fun _ => say_touches _)
    fun _ => trivial

theorem quit_touches : (quit cmdNum).Touches [.other, .overflow, .ends] := by
  unfold quit
  refine .bind_op (.head _) fun sendId => .bind_op (.head _) fun recId => ?_
  apply Prog.Only.bind ((quitSend_touches sendId).mono (by decide))
  intro _
  apply Prog.Only.bind ((quitRec_touches recId).mono (by decide))
  intro _
  exact quitNote_touches.mono (by decide)

theorem runScript_touches : (runScript cmdNum).Touches [.other, .tokens, .script, .tables] := by
  have tables : Group.tables ∈ [Group.other, .tokens, .script, .tables] := by decide
  unfold runScript
  refine .bind_op (.head _) fun sendId => .ite (fun _ => say_touches _) fun _ =>
    .bind_op second_mem fun _ => ?_
  refine .ite (fun _ => wrongParameter_touches cmdNum) fun _ => .bind_op second_mem fun number => ?_
  refine .ite (fun _ => wrongParameter_touches cmdNum) fun _ => .bind_op (.head _) fun scId => ?_
  refine .ite (fun _ => say_touches _) fun _ => .bind_op second_mem fun typed => ?_
  refine .bind (snprintf_touches _ _) fun name => .bind_op tables fun _ =>
    .bind_op third_mem fun created => ?_
  cases created with
  | none => exact say_touches _
  | some id => exact ⟨third_mem, fun _ => trivial⟩

end Handlers

section ScriptThread

variable (slot : Int)

/-- The walk over the lines of a script. -/
def walkGroups : List Group := [.other, .tables, .nested]

def scriptGroups : List Group := [.other, .tokens, .tables, .nested, .script, .exit]

/-- The count of a `loop` line is copied without a bound. -/
def loopGroups : List Group := [.other, .tokens, .tables, .nested, .script, .exit, .overflow]

theorem scanBlock_touches (fuel index : Nat) (loopStart : Option Nat) :
    (scanBlock slot fuel index loopStart).Touches walkGroups := by
  induction fuel generalizing index loopStart with
  | zero => exact fault_touches (.head _)
  | succ fuel ih =>
    refine .bind_op (.head _) fun line => .bind_op (.head _) fun line =>
      .ite (fun _ => trivial) fun _ => ?_
    exact ih _ _

theorem playLines_touches (count index : Nat) : (playLines slot count index).Touches walkGroups := by
  have nested : Group.nested ∈ walkGroups := by decide
  induction count generalizing index with
  | zero => trivial
  | succ count ih => exact .bind_op (.head _) fun line => .bind_op nested fun _ => ih _

theorem playBlock_touches (loopStart loopEnd loopTime : Nat) :
    (playBlock slot loopStart loopEnd loopTime).Touches walkGroups := by
  have tables : Group.tables ∈ walkGroups := by decide
  induction loopTime with
  | zero => trivial
  | succ loopTime ih =>
    refine .ite (fun _ => trivial) fun _ => .bind (playLines_touches slot _ _) fun _ => ?_
    exact .bind_op (.head _) fun count => .bind_op tables fun _ => ih

theorem endScript_touches : (endScript slot).Touches scriptGroups := by
  have tables : Group.tables ∈ scriptGroups := by decide
  have script : Group.script ∈ scriptGroups := by decide
  have exit : Group.exit ∈ scriptGroups := by decide
  exact .bind_op tables fun _ => .bind_op script fun _ => ⟨exit, fun _ => trivial⟩

theorem cpScriptContentToArray_touches (file : Text) :
    (cpScriptContentToArray slot file).Touches walkGroups := by
  have tables : Group.tables ∈ walkGroups := by decide
  have report (line : Text) : (reportLine line).Touches walkGroups :=
    .ite (fun _ => trivial) fun _ => .ite (fun _ => say_touches _) fun _ => trivial
  refine .bind_op (.head _) fun allocated => .ite (fun _ => ?_) fun _ => trivial
  exact .bind (each_only report) fun _ => .bind_op tables fun _ => trivial

theorem loopParameter_touches (line : Text) : (loopParameter line).Touches loopGroups := by
  unfold loopParameter
  cases strstr cSpace line with
  | none => exact fault_touches (.head _)
  | some p => exact sprintf_touches (by decide) _ _

theorem scriptLoop_touches (scriptLineNum fuel index : Nat) (loopStart : Option Nat) :
    (scriptLoop slot scriptLineNum fuel index loopStart).Touches loopGroups := by
  have nested : Group.nested ∈ loopGroups := by decide
  have script : Group.script ∈ loopGroups := by decide
  have ends : (endScript slot).Touches loopGroups := (endScript_touches slot).mono (by decide)
  induction fuel generalizing index loopStart with
  | zero => exact fault_touches (.head _)
  | succ fuel ih =>
    unfold scriptLoop
    refine .ite (fun _ => ends) fun _ => .bind_op (.head _) fun line => ?_
    refine .ite (fun _ => ?_) fun _ => .bind_op (.head _) fun line => .bind_op nested fun _ => ih _ _
    refine .bind (loopParameter_touches line) fun parameter => .ite (fun _ => ?_) fun _ => ?_
    · apply Prog.Only.bind ((scanBlock_touches slot _ _ _).mono (by decide))
      intro block
      obtain ⟨loopStart, endLine⟩ := block
      cases loopStart with
      | none => exact fault_touches (.head _)
      | some first => exact .bind ((playBlock_touches slot _ _ _).mono (by decide)) fun _ => ih _ _
    · exact .bind (say_touches _) fun _ => .bind_op script fun _ => ends

theorem scriptCmdProcess_touches : scriptCmdProcess.Touches loopGroups := by
  have tables : Group.tables ∈ loopGroups := by decide
  have script : Group.script ∈ loopGroups := by decide
  have exit : Group.exit ∈ loopGroups := by decide
  have ends (slot : Int) : (endScript slot).Touches loopGroups :=
    (endScript_touches slot).mono (by decide)
  unfold scriptCmdProcess
  refine .bind_op (.head _) fun _ => .bind_op second_mem fun token => ?_
  generalize atoi token = slot
  refine .bind_op tables fun _ => .bind_op (.head _) fun name => .bind_op (.head _) fun opened => ?_
  cases opened with
  | none => exact .bind (say_touches _) fun _ => .bind_op script fun _ => ⟨exit, fun _ => trivial⟩
  | some file =>
    refine .bind_op tables fun allocated => .ite (fun _ => ?_) fun _ => ends slot
    apply Prog.Only.bind ((cpScriptContentToArray_touches slot file).mono (by decide))
    intro scriptLineNum
    exact .ite (fun _ => .bind (say_touches _) fun _ => ends slot) fun _ =>
      scriptLoop_touches slot _ _ _ _

end ScriptThread

/-- A handler stays within its groups. -/
theorem Func.run_touches (f : Func) (cmdNum : Nat) : (f.run cmdNum).Touches f.groups := by
  cases f with
  | showHelp => exact showHelp_touches
  | autoConfig => exact autoConfig_touches cmdNum
  | addClient => exact addClient_touches cmdNum
  | call => exact call_touches cmdNum
  | changeClientIpAddr => exact changeClientIpAddr_touches cmdNum
  | delClient => exact delClient_touches cmdNum
  | delay => exact delay_touches cmdNum
  | ioevt => exact ioevt_touches cmdNum
  | look => exact look_touches cmdNum
  | quit => exact quit_touches cmdNum
  | runScript => exact runScript_touches cmdNum
  | randomTime => exact randomTime_touches cmdNum
  | randomKey => exact randomKey_touches cmdNum
  | showClient => exact showClient_touches cmdNum
  | start => exact start_touches cmdNum
  | stop => exact stop_touches cmdNum
  | syslogConf => exact syslogConf_touches cmdNum
  | hideFeatureProc => exact hideFeatureProc_touches cmdNum

end AutoTest
