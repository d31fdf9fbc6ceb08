import AutoTest.HandOver
import AutoTest.KeyEvents

/-!
# The numbers of clients and of script slots

The tables of clients and of script slots have ten entries each. Every handler
tests the number it is given in its own way, some accessors test it again, and
others use it as it is.

* `Op.InBounds`: an operation does not leave a table.
* `client_gates`: no client number takes a handler or the log scan out of one.
* `slot_gates_iff`: slot number ten does.
-/

namespace AutoTest

open CString Strtok Program Cmd

/-- The numbers of the entries. -/
def Inside (n : Int) : Prop := minClient ≤ n ∧ n ≤ maxClient - 1

instance (n : Int) : Decidable (Inside n) := inferInstanceAs (Decidable (_ ∧ _))

/-- The entries an operation uses without a test that keeps it inside the tables. -/
def Op.InBounds : Op → Prop
  | .closeSocket n => Inside n
  | .getCountOfSuccessCall type n => type < maxCallType ∧ Inside n
  | .setCountOfSuccessCall type n value => 0 ≤ value → type < maxCallType ∧ Inside n
  | .getScriptThreadID n => Inside n
  | .setScriptThreadID n _ => n < minClient ∨ n > maxClient ∨ Inside n
  | .getCountOfScriptRun n => Inside n
  | .setCountOfScriptRun n value => 0 ≤ value → Inside n
  | .getScriptName n => Inside n
  | .setScriptName n _ => Inside n
  | .mallocScript n => Inside n
  | .copyScript n _ => Inside n
  | .scriptCmd n _ => Inside n
  | .freeScript n => Inside n
  | _ => True

/-- Neither a nested line nor an access to another array. -/
def Op.Direct : Op → Prop
  | .fault f => f ≠ .bounds
  | .call _ => False
  | .copyScript _ _ => False
  | .scriptCmd _ _ => False
  | _ => True

def Op.Gated (o : Op) : Prop := o.InBounds ∧ o.Direct

/-- What the accessors answer: no client outside the table is in use, and the
tokens of a text are cut from it. -/
def Op.Returns : (o : Op) → o.Res → Prop
  | .getClientFlag n, r => Inside n ∨ r = error
  | .getTokens inStr delim, r =>
    ∃ t, CString.snprintf maxScContent inStr = some t ∧ r = (words delim t).take maxToken
  | _, _ => True

theorem inside_iff {n : Int} : Inside n ↔ ∃ m : Client, n = m := by
  constructor
  · intro inside
    exact ⟨⟨n.toNat, by simp only [Inside, minClient, maxClient] at inside; omega⟩,
      (Int.toNat_of_nonneg inside.1).symm⟩
  · rintro ⟨m, rfl⟩
    simp only [Inside, minClient, maxClient]
    omega

section Steps

variable {host : Host} {callee : Text → World → Except Fault World} {w v : World}

/-- An operation that stays inside the tables does not run out of an array. -/
theorem sharedStep_gated {o : Op} (gated : o.Gated) {s : Shared} {e : Fault}
    (hstep : sharedStep host o s = .error e) : e ≠ .bounds := by
  obtain ⟨inBounds, direct⟩ := gated
  cases o with
  | fault f =>
    cases hstep
    exact direct
  | closeSocket n =>
    obtain ⟨m, rfl⟩ := inside_iff.mp inBounds
    have closed := writing_error hstep
    simp only [Net.closeSocket, clientIndex_cast] at closed
    split at closed <;> cases closed
  | setClientIpAddr n ipAddr =>
    have stored := writing_error hstep
    unfold Net.setClientIpAddr at stored
    split at stored
    · cases stored
    · split at stored <;> cases stored
      decide
  | getClientIpAddr n =>
    simp only [sharedStep] at hstep
    split at hstep <;> cases hstep
    decide
  | getCountOfSuccessCall type n =>
    obtain ⟨inType, inside⟩ := inBounds
    obtain ⟨m, rfl⟩ := inside_iff.mp inside
    have count := reading_error hstep
    simp [Shared.getCountOfSuccessCall, inType] at count
  | setCountOfSuccessCall type n value =>
    have count := writing_error hstep
    unfold Shared.setCountOfSuccessCall at count
    split at count
    · cases count
    · rename_i positive
      obtain ⟨inType, inside⟩ := inBounds (Int.not_lt.mp positive)
      obtain ⟨m, rfl⟩ := inside_iff.mp inside
      simp [inType] at count
  | getScriptThreadID n =>
    obtain ⟨m, rfl⟩ := inside_iff.mp inBounds
    have count := reading_error hstep
    simp [Scripts.getScriptThreadID, bind, Except.bind, pure, Except.pure] at count
  | setScriptThreadID n id =>
    have stored := writing_error hstep
    rcases inBounds with low | high | inside
    · simp [Scripts.setScriptThreadID, low] at stored
    · simp [Scripts.setScriptThreadID, high] at stored
    · obtain ⟨m, rfl⟩ := inside_iff.mp inside
      simp at stored
  | getCountOfScriptRun n =>
    obtain ⟨m, rfl⟩ := inside_iff.mp inBounds
    have count := reading_error hstep
    simp at count
  | setCountOfScriptRun n value =>
    have stored := writing_error hstep
    unfold Scripts.setCountOfScriptRun at stored
    split at stored
    · cases stored
    · rename_i positive
      obtain ⟨m, rfl⟩ := inside_iff.mp (inBounds (Int.not_lt.mp positive))
      simp [bind, Except.bind, pure, Except.pure] at stored
  | getScriptName n =>
    obtain ⟨m, rfl⟩ := inside_iff.mp inBounds
    have name := reading_error hstep
    simp at name
  | setScriptName n name =>
    obtain ⟨m, rfl⟩ := inside_iff.mp inBounds
    have stored := writing_error hstep
    simp [Scripts.setScriptName, bind, Except.bind, pure, Except.pure] at stored
  | mallocScript n =>
    obtain ⟨m, rfl⟩ := inside_iff.mp inBounds
    simp only [sharedStep, Scripts.mallocScript_slot, Scripts.freeScript_slot] at hstep
    split at hstep <;> cases hstep
  | freeScript n =>
    obtain ⟨m, rfl⟩ := inside_iff.mp inBounds
    have freed := writing_error hstep
    simp at freed
  | copyScript | scriptCmd | call => exact direct.elim
  | pthreadKill id =>
    simp only [sharedStep] at hstep
    split at hstep <;> cases hstep
    decide
  | pthreadJoin id =>
    have joined := writing_error hstep
    unfold Shared.pthreadJoin at joined
    split at joined <;> cases joined
    decide
  | msgsnd m =>
    simp only [sharedStep] at hstep
    split at hstep <;> cases hstep
  | setParams | paramNum | param | getTokens =>
    cases hstep
    decide
  | _ => cases hstep

theorem interp_gated {o : Op} (gated : o.Gated) {e : Fault}
    (hstep : interp host callee o w = .error e) : e ≠ .bounds := by
  cases o with
  | setParams line =>
    have loaded := writing_error hstep
    unfold Params.load at loaded
    split at loaded <;> cases loaded
    decide
  | paramNum => cases hstep
  | param i =>
    have read := reading_error hstep
    unfold Params.param at read
    split at read <;> cases read
    decide
  | getTokens inStr delim =>
    simp only [interp] at hstep
    split at hstep
    · cases hstep
    · rename_i split
      cases hstep
      unfold Params.getTokens at split
      split at split <;> cases split
      decide
  | call line => exact gated.2.elim
  | _ =>
    simp only [interp] at hstep
    split at hstep
    · cases hstep
    · rename_i hshared
      cases hstep
      exact sharedStep_gated gated hshared

theorem interp_returns {o : Op} {r : o.Res} (hstep : interp host callee o w = .ok (r, v)) :
    o.Returns r := by
  cases o with
  | getClientFlag n =>
    cases hstep
    by_cases inside : Inside n
    · exact .inl inside
    · right
      have outside : clientIndex n = none := dif_neg inside
      simp [Net.getClientFlag, outside]
  | getTokens inStr delim =>
    simp only [interp] at hstep
    split at hstep
    · rename_i tokens params split
      cases hstep
      cases hcopy : CString.snprintf maxScContent inStr with
      | none => simp [Params.getTokens, hcopy] at split
      | some t =>
        obtain ⟨tmp, own⟩ := Params.getTokens_own delim hcopy w.params
        obtain ⟨rfl, -⟩ := Prod.mk.inj (Except.ok.inj (own.symm.trans split))
        exact ⟨t, hcopy, rfl⟩
    · cases hstep
  | _ => trivial

end Steps

/-! ## Client numbers -/

section Clients

variable {α : Type} (cmdNum : Nat)

abbrev Cmd.Gated (p : Cmd α) : Prop := p.Given Op.Returns Op.Gated

theorem print_gated (t : Text) : (Cmd.print t).Gated := ⟨⟨trivial, trivial⟩, fun _ _ => trivial⟩

theorem say_gated (t : String) : (say t).Gated := print_gated _

theorem wrongParameter_gated : (wrongParameter cmdNum).Gated :=
  .bind (say_gated _) fun _ => print_gated _

theorem fault_gated : (Op.fault .format).Gated := ⟨trivial, show Fault.format ≠ .bounds by decide⟩

theorem snprintf_gated (size : Nat) (fmt : Text) : (Cmd.snprintf size fmt).Gated := by
  unfold Cmd.snprintf
  split
  · trivial
  · exact ⟨fault_gated, fun r => r.elim⟩

theorem cmdCode_gated (typed : Text) : (cmdCode cmdNum typed).Gated :=
  .ite (fun _ => snprintf_gated _ _) fun _ => snprintf_gated _ _

theorem msgsndOrSay_gated (m : MsgQ) (failure : String) : (msgsndOrSay m failure).Gated :=
  ⟨⟨trivial, trivial⟩, fun _ _ => .ite (fun _ => say_gated _) fun _ => trivial⟩

theorem addClient_gated : (addClient cmdNum).Gated := by
  unfold addClient
  refine .step ⟨trivial, trivial⟩ fun gParamNum =>
    .ite (fun _ => wrongParameter_gated cmdNum) fun _ => ?_
  refine .step ⟨trivial, trivial⟩ fun token => .step ⟨trivial, trivial⟩ fun ipAddr => ?_
  refine .step ⟨trivial, trivial⟩ fun _ => .step ⟨trivial, trivial⟩ fun stat => ?_
  refine .step ⟨trivial, trivial⟩ fun _ => .ite (fun _ => say_gated _) fun _ => ?_
  refine .step ⟨trivial, trivial⟩ fun stat => .ite (fun _ => print_gated _) fun _ => ?_
  refine .step ⟨trivial, trivial⟩ fun _ => .step ⟨trivial, trivial⟩ fun _ => ?_
  exact .step ⟨trivial, trivial⟩ fun _ => .step ⟨trivial, trivial⟩ fun _ => say_gated _

/-- A client in use is inside the tables, where the range test admits ten. -/
theorem delClient_gated : (delClient cmdNum).Gated := by
  unfold delClient
  refine .step ⟨trivial, trivial⟩ fun token => .step ⟨trivial, trivial⟩ fun gParamNum => ?_
  refine .ite (fun _ => wrongParameter_gated cmdNum) fun _ => .step ⟨trivial, trivial⟩ fun _ => ?_
  refine .bind_op ⟨trivial, trivial⟩ fun stat answer => .step ⟨trivial, trivial⟩ fun _ => ?_
  apply Prog.Given.ite (fun _ => print_gated _)
  intro inUse
  have inside : Inside (atoi token) := answer.resolve_right inUse
  refine .step ⟨trivial, trivial⟩ fun _ => .step ⟨trivial, trivial⟩ fun _ => ?_
  refine .step ⟨trivial, trivial⟩ fun _ => .step ⟨inside, trivial⟩ fun _ => ?_
  exact .step ⟨trivial, trivial⟩ fun _ => ⟨⟨trivial, trivial⟩, fun _ _ => trivial⟩

theorem changeClientIpAddr_gated : (changeClientIpAddr cmdNum).Gated := by
  unfold changeClientIpAddr
  refine .step ⟨trivial, trivial⟩ fun gParamNum =>
    .ite (fun _ => wrongParameter_gated cmdNum) fun _ => ?_
  refine .step ⟨trivial, trivial⟩ fun token => .step ⟨trivial, trivial⟩ fun ipAddr => ?_
  refine .step ⟨trivial, trivial⟩ fun _ => .step ⟨trivial, trivial⟩ fun stat => ?_
  refine .step ⟨trivial, trivial⟩ fun _ => .ite (fun _ => say_gated _) fun _ => ?_
  refine .step ⟨trivial, trivial⟩ fun stat => .ite (fun _ => say_gated _) fun _ => ?_
  refine .step ⟨trivial, trivial⟩ fun _ => .step ⟨trivial, trivial⟩ fun _ => ?_
  exact .step ⟨trivial, trivial⟩ fun _ => say_gated _

theorem call_gated : (AutoTest.call cmdNum).Gated := by
  unfold AutoTest.call
  refine .step ⟨trivial, trivial⟩ fun gParamNum =>
    .ite (fun _ => wrongParameter_gated cmdNum) fun _ => ?_
  refine .step ⟨trivial, trivial⟩ fun token => .ite (fun _ => say_gated _) fun _ => ?_
  refine .step ⟨trivial, trivial⟩ fun sendId => .ite (fun _ => say_gated _) fun _ => ?_
  refine .step ⟨trivial, trivial⟩ fun _ => .bind (snprintf_gated _ _) fun code => ?_
  refine .step ⟨trivial, trivial⟩ fun _ => .bind (snprintf_gated _ _) fun shared => ?_
  exact msgsndOrSay_gated _ _

theorem syslogConf_gated : (syslogConf cmdNum).Gated := by
  unfold syslogConf
  refine .step ⟨trivial, trivial⟩ fun gParamNum =>
    .ite (fun _ => wrongParameter_gated cmdNum) fun _ => ?_
  refine .step ⟨trivial, trivial⟩ fun token => .ite (fun _ => say_gated _) fun _ => ?_
  refine .step ⟨trivial, trivial⟩ fun sendId => .ite (fun _ => say_gated _) fun _ => ?_
  refine .step ⟨trivial, trivial⟩ fun _ => .bind (cmdCode_gated cmdNum _) fun code => ?_
  refine .step ⟨trivial, trivial⟩ fun _ => .ite (fun _ => ?_) fun _ => ?_
  · refine .step ⟨trivial, trivial⟩ fun first => .step ⟨trivial, trivial⟩ fun second => ?_
    exact .step ⟨trivial, trivial⟩ fun port => msgsndOrSay_gated _ _
  · refine .step ⟨trivial, trivial⟩ fun first => .step ⟨trivial, trivial⟩ fun port => ?_
    exact msgsndOrSay_gated _ _

theorem hideFeatureProc_gated : (hideFeatureProc cmdNum).Gated := by
  unfold hideFeatureProc
  refine .step ⟨trivial, trivial⟩ fun gParamNum =>
    .ite (fun _ => wrongParameter_gated cmdNum) fun _ => ?_
  refine .step ⟨trivial, trivial⟩ fun token => .ite (fun _ => say_gated _) fun _ => ?_
  refine .step ⟨trivial, trivial⟩ fun sendId => .ite (fun _ => say_gated _) fun _ => ?_
  refine .step ⟨trivial, trivial⟩ fun _ => .bind (cmdCode_gated cmdNum _) fun code => ?_
  refine .step ⟨trivial, trivial⟩ fun _ => .step ⟨trivial, trivial⟩ fun shared => ?_
  exact msgsndOrSay_gated _ _

/-- The copy of the keys is too short for more of them than there is room for. -/
theorem ioevt_gated : (ioevt cmdNum).Gated := by
  have few {typed keys t : Text} (hkeys : CString.snprintf (2 * maxIoevt) typed = some keys)
      (ht : CString.snprintf maxScContent keys = some t) :
      ¬ ((words cComma t).take maxToken).length > maxIoevt := by
    have room : (words cComma t).length ≤ maxIoevt :=
      lookedUp_few (k := typed) (by simp [lookedUp, hkeys, ht])
    have cut := List.length_take_le' maxToken (words cComma t)
    omega
  unfold ioevt
  refine .step ⟨trivial, trivial⟩ fun gParamNum =>
    .ite (fun _ => wrongParameter_gated cmdNum) fun _ => ?_
  refine .step ⟨trivial, trivial⟩ fun action =>
    .ite (fun _ => wrongParameter_gated cmdNum) fun _ => ?_
  refine .step ⟨trivial, trivial⟩ fun token => .ite (fun _ => say_gated _) fun _ => ?_
  refine .step ⟨trivial, trivial⟩ fun sendId => .ite (fun _ => say_gated _) fun _ => ?_
  refine .step ⟨trivial, trivial⟩ fun _ => .bind (cmdCode_gated cmdNum _) fun code => ?_
  refine .step ⟨trivial, trivial⟩ fun token => .ite (fun _ => trivial) fun _ => ?_
  refine .step ⟨trivial, trivial⟩ fun _ => .bind (snprintf_gated _ _) fun action => ?_
  apply Prog.Given.step ⟨trivial, trivial⟩
  intro typed
  cases hkeys : CString.snprintf (2 * maxIoevt) typed with
  | none =>
    rw [Cmd.snprintf_none hkeys]
    exact ⟨fault_gated, fun r => r.elim⟩
  | some keys =>
    rw [Cmd.snprintf_some hkeys]
    refine .bind_op ⟨trivial, trivial⟩ ?_
    rintro ioevtParam ⟨t, ht, rfl⟩
    rw [if_neg (few hkeys ht)]
    cases keyCodes ((words cComma t).take maxToken) with
    | error k => exact print_gated _
    | ok codes => exact msgsndOrSay_gated _ _

/-- The test of the log scan leaves out client 0 too. -/
theorem syslogProcess_gated (log : Text) (n : Int) (hlog : getLogClientNum log = .ok n) :
    (syslogProcess log).Gated := by
  have count {type : Nat} (inType : type < maxCallType) (inside : Inside n) :
      (countCall type n).Gated := by
    refine .step ⟨⟨inType, inside⟩, trivial⟩ fun retNum => ?_
    exact ⟨⟨fun _ => ⟨inType, inside⟩, trivial⟩, fun _ _ => trivial⟩
  unfold syslogProcess
  rw [hlog]
  cases getLogMsgIssueId log with
  | none => trivial
  | some issueId =>
    apply Prog.Given.ite
    · intro range
      have inside : Inside n := by
        simp only [Inside, minClient, maxClient] at range ⊢
        omega
      cases issueId with
      | suspend =>
        refine .step ⟨trivial, trivial⟩ fun _ => .step ⟨trivial, trivial⟩ fun _ => ?_
        refine .step ⟨trivial, trivial⟩ fun _ => .step ⟨inside, trivial⟩ fun _ => ?_
        exact .step ⟨trivial, trivial⟩ fun _ => ⟨⟨trivial, trivial⟩, fun _ _ => trivial⟩
      | talkBuild => exact count (by decide) inside
      | talkConference => exact count (by decide) inside
    · intro outside
      trivial

end Clients

/-! ## Refusals -/

/-- But for what is printed. -/
def Shared.Unchanged (s s' : Shared) : Prop := ∃ out, s' = { s with out := out }

section Refusals

variable {host : Host} {callee : Text → World → Except Fault World} {w : World}
    {cmdNum : Nat} {number : Text}

/-- The function returns, with the state unchanged. -/
abbrev Refuses (host : Host) (callee : Text → World → Except Fault World) (p : Cmd Unit)
    (w : World) : Prop :=
  p.Leads (interp host callee) (fun _ => False) (fun _ w' => w.shared.Unchanged w'.shared) w

theorem print_refuses (t : Text) : Refuses host callee (Cmd.print t) w := ⟨_, rfl⟩

theorem wrongParameter_refuses : Refuses host callee (wrongParameter cmdNum) w := ⟨_, rfl⟩

theorem outside_index (outside : ¬ Inside (atoi number)) : clientIndex (atoi number) = none :=
  dif_neg outside

/-- The test that the messages have in common. -/
theorem range_refuses {rest : Text → Cmd Unit} (first : w.params.param 1 = .ok number)
    (outside : ¬ Inside (atoi number)) : Refuses host callee (do
      let token ← param 1
      if atoi token > maxClient - 1 ∨
        atoi token < minClient then validClients else rest token) w := by
  apply param_leads first
  apply Prog.Leads.ite (fun _ => print_refuses _)
  intro inside
  simp only [Inside, minClient, maxClient] at outside inside
  omega

/-- The flag read outside the tables is `ERROR`, which is `UNUSED`. -/
theorem flag_outside {f : Int → Cmd Unit} (outside : ¬ Inside (atoi number))
    (next : Refuses host callee (f error) w) : Refuses host callee (do
      lock
      let stat ← getClientFlag (atoi number)
      unlock
      f stat) w := by
  apply Prog.Leads.now rfl
  apply Prog.Leads.now (r := error) (t := w)
  · simp only [interp, sharedStep, Net.getClientFlag, outside_index outside]
  apply Prog.Leads.now rfl
  exact next

theorem addClient_refuses (first : w.params.param 1 = .ok number) {ipAddr : Text}
    (second : w.params.param 2 = .ok ipAddr) (outside : ¬ Inside (atoi number)) :
    Refuses host callee (addClient cmdNum) w := by
  apply Prog.Leads.now rfl
  apply Prog.Leads.ite (fun _ => wrongParameter_refuses)
  intro _
  apply param_leads first
  apply param_leads second
  apply flag_outside outside
  apply Prog.Leads.ite (fun _ => print_refuses _)
  intro _
  apply Prog.Leads.now (r := AtStat.failed) (t := w)
  · simp only [interp, sharedStep, Net.networkConfig, outside_index outside]
  apply Prog.Leads.ite (fun _ => print_refuses _)
  intro accepted
  exact absurd rfl accepted

/-- Ten passes the range test and is refused as a client that is not in use. -/
theorem delClient_refuses (first : w.params.param 1 = .ok number) (outside : ¬ Inside (atoi number)) :
    Refuses host callee (delClient cmdNum) w := by
  apply param_leads first
  apply Prog.Leads.now rfl
  apply Prog.Leads.ite (fun _ => wrongParameter_refuses)
  intro _
  apply flag_outside outside
  apply Prog.Leads.ite (fun _ => print_refuses _)
  intro inUse
  exact absurd rfl inUse

theorem changeClientIpAddr_refuses (first : w.params.param 1 = .ok number) {ipAddr : Text}
    (second : w.params.param 2 = .ok ipAddr) (outside : ¬ Inside (atoi number)) :
    Refuses host callee (changeClientIpAddr cmdNum) w := by
  apply Prog.Leads.now rfl
  apply Prog.Leads.ite (fun _ => wrongParameter_refuses)
  intro _
  apply param_leads first
  apply param_leads second
  apply flag_outside outside
  apply Prog.Leads.ite (fun _ => print_refuses _)
  intro inUse
  exact absurd rfl inUse

theorem ioevt_refuses (first : w.params.param 1 = .ok number) {action : Text}
    (third : w.params.param 3 = .ok action) (outside : ¬ Inside (atoi number)) :
    Refuses host callee (ioevt cmdNum) w := by
  apply Prog.Leads.now rfl
  apply Prog.Leads.ite (fun _ => wrongParameter_refuses)
  intro _
  apply param_leads third
  apply Prog.Leads.ite (fun _ => wrongParameter_refuses)
  intro _
  exact range_refuses first outside

theorem call_refuses (first : w.params.param 1 = .ok number) (outside : ¬ Inside (atoi number)) :
    Refuses host callee (AutoTest.call cmdNum) w := by
  apply Prog.Leads.now rfl
  apply Prog.Leads.ite (fun _ => wrongParameter_refuses)
  intro _
  exact range_refuses first outside

theorem syslogConf_refuses (first : w.params.param 1 = .ok number)
    (outside : ¬ Inside (atoi number)) : Refuses host callee (syslogConf cmdNum) w := by
  apply Prog.Leads.now rfl
  apply Prog.Leads.ite (fun _ => wrongParameter_refuses)
  intro _
  exact range_refuses first outside

theorem hideFeatureProc_refuses (first : w.params.param 1 = .ok number)
    (outside : ¬ Inside (atoi number)) : Refuses host callee (hideFeatureProc cmdNum) w := by
  apply Prog.Leads.now rfl
  apply Prog.Leads.ite (fun _ => wrongParameter_refuses)
  intro _
  exact range_refuses first outside

theorem syslogProcess_refuses {log : Text} {n : Int} (hlog : getLogClientNum log = .ok n)
    (outside : ¬ Inside n) : Refuses host callee (syslogProcess log) w := by
  unfold syslogProcess
  rw [hlog]
  cases getLogMsgIssueId log with
  | none => exact ⟨_, rfl⟩
  | some issueId =>
    apply Prog.Leads.ite
    · intro range
      refine absurd ?_ outside
      simp only [Inside, minClient, maxClient] at range ⊢
      omega
    · intro _
      exact ⟨_, rfl⟩

end Refusals

/-- The commands that name a client, with the arguments they need. -/
def Func.clientArgs : Func → Option Nat
  | .addClient => some 2
  | .delClient => some 1
  | .changeClientIpAddr => some 2
  | .ioevt => some 3
  | .call => some 2
  | .syslogConf => some 2
  | .hideFeatureProc => some 2
  | _ => none

/-- A run from `w` with the number `n` stays inside the arrays, and leaves the
state as it was where the number names no entry. -/
structure Gate (n : Int) (run : Except Fault World) (w : World) : Prop where
  inBounds : run ≠ .error .bounds
  refused : ¬ Inside n → ∃ w', run = .ok w' ∧ w.shared.Unchanged w'.shared

theorem Func.client_gated {f : Func} (names : f.clientArgs.isSome) (cmdNum : Nat) :
    (f.run cmdNum).Gated := by
  cases f with
  | addClient => exact addClient_gated cmdNum
  | delClient => exact delClient_gated cmdNum
  | changeClientIpAddr => exact changeClientIpAddr_gated cmdNum
  | ioevt => exact ioevt_gated cmdNum
  | call => exact call_gated cmdNum
  | syslogConf => exact syslogConf_gated cmdNum
  | hideFeatureProc => exact hideFeatureProc_gated cmdNum
  | _ => cases names

theorem Func.client_refuses {f : Func} {needs : Nat}
    (names : f.clientArgs = some needs) {cmdNum : Nat}
    {host : Host} {callee : Text → World → Except Fault World} {w : World} {args : List Text}
    (enough : needs ≤ args.length) (own : ∀ i, (hi : i < args.length) →
      w.params.param (i + 1) = .ok args[i])
    (outside : ¬ Inside (atoi (args.getD 0 []))) : Refuses host callee (f.run cmdNum) w := by
  have first (one : 1 ≤ args.length) : w.params.param 1 = .ok (args.getD 0 []) := by
    rw [own 0 one]
    simp [List.getD_eq_getElem?_getD, List.getElem?_eq_getElem one]
  cases f with
  | addClient =>
    cases names
    exact addClient_refuses (first (by omega)) (own 1 enough) outside
  | delClient =>
    cases names
    exact delClient_refuses (first enough) outside
  | changeClientIpAddr =>
    cases names
    exact changeClientIpAddr_refuses (first (by omega)) (own 1 enough) outside
  | ioevt =>
    cases names
    exact ioevt_refuses (first (by omega)) (own 2 enough) outside
  | call =>
    cases names
    exact call_refuses (first (by omega)) outside
  | syslogConf =>
    cases names
    exact syslogConf_refuses (first (by omega)) outside
  | hideFeatureProc =>
    cases names
    exact hideFeatureProc_refuses (first (by omega)) outside
  | _ => cases names

theorem Cmd.Gated.runs {host : Host} {callee : Text → World → Except Fault World}
    {p : Cmd Unit} (h : p.Gated)
    (w : World) : p.Leads (interp host callee) (· ≠ .bounds) (fun _ _ => True) w :=
  Prog.Given.leads (I := fun _ => True) (fun _ _ _ _ _ _ hstep => ⟨interp_returns hstep, trivial⟩)
    (fun _ _ _ gated hstep => interp_gated gated hstep) h trivial

/-- No number on a line or in a log text leads out of the tables of the clients. -/
theorem client_gates (host : Host) (depth : Nat) (w : World) :
    (∀ f needs (l : CmdLine f), f.clientArgs = some needs → needs ≤ l.args.length →
      (f.run l.cmdNum).Given Op.Returns Op.InBounds ∧
        Gate (atoi (l.args.getD 0 [])) (exec host (depth + 1) l.line w) w) ∧
    (∀ log n, getLogClientNum log = .ok n →
      (syslogProcess log).Given Op.Returns Op.InBounds ∧
        Gate n (perform host (exec host depth) (syslogProcess log) w) w) := by
  constructor
  · intro f needs l names enough
    have gated := f.client_gated (by simp [names]) l.cmdNum
    refine ⟨gated.mono fun _ ho => ho.1, ?_, ?_⟩
    · intro hrun
      exact perform_error (l.leads fun p _ => gated.runs ⟨p, w.shared⟩) hrun rfl
    · intro outside
      apply exec_leads
      apply l.leads
      intro p loaded
      apply f.client_refuses names enough _ outside
      intro i hi
      exact loaded.own (i + 1) (by simpa using hi)
  · intro log n hlog
    have gated := syslogProcess_gated log n hlog
    refine ⟨gated.mono fun _ ho => ho.1, ?_, ?_⟩
    · intro hrun
      exact perform_error (gated.runs w) hrun rfl
    · intro outside
      exact perform_leads (syslogProcess_refuses hlog outside)

def delTen : CmdLine .delClient where
  line := "del 10".toList
  name := "del".toList
  args := ["10".toList]
  cmdNum := 5
  tokens := by decide +kernel
  code := by decide
  func := rfl

def noHost : Host := .willing (fun n => n + 3) (fun _ => none) fun _ => none

def bareWorld : World := ⟨.initial, .initial fun _ => none⟩

/-- Ten passes the range test of `del`, and a log text can name client 12. -/
theorem client_gates_outside :
    Gate (atoi "10".toList) (exec noHost 1 delTen.line bareWorld) bareWorld ∧
      Gate 12 (perform noHost (exec noHost 0) (syslogProcess "client 12 suspended".toList) bareWorld)
        bareWorld :=
  ⟨((client_gates noHost 0 bareWorld).1 .delClient 1 delTen rfl (by decide)).2,
    ((client_gates noHost 0 bareWorld).2 _ 12 (by decide +kernel)).2⟩

/-! ## Slot numbers -/

/-- The text of the second token, whenever it is read. -/
def Op.Reads (reads : Text → Prop) : (o : Op) → o.Res → Prop
  | .param 1, t => reads t
  | _, _ => True

/-- The token array stays as it is. -/
def Op.Still : Op → Prop
  | .setParams _ => False
  | .getTokens _ _ => False
  | .call _ => False
  | _ => True

section Slots

variable {α : Type} {reads : Text → Prop} (cmdNum : Nat)

/-- An operation of `runScript` or `stop` on a slot inside the tables. -/
def Op.Slotted (o : Op) : Prop := o.Gated ∧ o.Still

abbrev Cmd.Slotted (reads : Text → Prop) (p : Cmd α) : Prop := p.Given (Op.Reads reads) Op.Slotted

theorem print_slotted (t : Text) : (Cmd.print t).Slotted reads :=
  ⟨⟨⟨trivial, trivial⟩, trivial⟩, fun _ _ => trivial⟩

theorem wrongParameter_slotted : (wrongParameter cmdNum).Slotted reads :=
  .bind (print_slotted _) fun _ => print_slotted _

/-- A number that passes the test and is not ten is inside. -/
theorem inside_of_range {n : Int} (range : ¬ (n > maxScriptThread ∨ n < 0))
    (other : n ≠ maxScriptThread) : Inside n := by
  simp only [Inside, minClient, maxClient, maxScriptThread] at *
  omega

theorem setScriptThreadID_inBounds {n : Int} (other : n ≠ maxScriptThread) (id : Tid) :
    (Op.setScriptThreadID n id).InBounds := by
  simp only [Op.InBounds, Inside, minClient, maxClient, maxScriptThread] at *
  omega

theorem runScript_slotted (other : ∀ t, reads t → atoi t ≠ maxScriptThread) :
    (runScript cmdNum).Slotted reads := by
  unfold runScript
  refine .step ⟨⟨trivial, trivial⟩, trivial⟩ fun sendId => .ite (fun _ => print_slotted _) fun _ => ?_
  refine .step ⟨⟨trivial, trivial⟩, trivial⟩ fun gParamNum => ?_
  apply Prog.Given.ite (fun _ => wrongParameter_slotted cmdNum)
  intro _
  apply Prog.Given.bind_op ⟨⟨trivial, trivial⟩, trivial⟩
  intro token read
  apply Prog.Given.ite (fun _ => wrongParameter_slotted cmdNum)
  intro range
  have inside := inside_of_range range (other token read)
  refine .step ⟨⟨inside, trivial⟩, trivial⟩ fun scId => .ite (fun _ => print_slotted _) fun _ => ?_
  refine .step ⟨⟨trivial, trivial⟩, trivial⟩ fun file => .bind ?_ fun name => ?_
  · unfold Cmd.snprintf
    split
    · trivial
    · exact ⟨⟨fault_gated, trivial⟩, fun r => r.elim⟩
  refine .step ⟨⟨inside, trivial⟩, trivial⟩ fun _ =>
    .step ⟨⟨trivial, trivial⟩, trivial⟩ fun created => ?_
  cases created with
  | none => exact print_slotted _
  | some scId =>
    exact ⟨⟨⟨setScriptThreadID_inBounds (other token read) scId, trivial⟩, trivial⟩,
      fun _ _ => trivial⟩

theorem stopScript_slotted {index : Nat} (inside : index < 10) :
    (stopScript index).Slotted reads := by
  have inside : Inside index := by
    simp only [Inside, minClient, maxClient]
    omega
  refine .step ⟨⟨inside, trivial⟩, trivial⟩ fun scId => .ite (fun _ => trivial) fun _ => ?_
  refine .step ⟨⟨trivial, trivial⟩, trivial⟩ fun _ => .step ⟨⟨trivial, trivial⟩, trivial⟩ fun _ => ?_
  exact ⟨⟨⟨.inr (.inr inside), trivial⟩, trivial⟩, fun _ _ => trivial⟩

theorem each_slotted {as : List Nat} (inside : ∀ a ∈ as, a < 10) :
    (Cmd.each as stopScript).Slotted reads := by
  induction as with
  | nil => trivial
  | cons a as ih =>
    apply Prog.Given.bind (stopScript_slotted (inside a (by simp)))
    intro _
    exact ih fun b hb => inside b (by simp [hb])

theorem stopSend_slotted (sendId : Tid) : (stopSend sendId).Slotted reads := by
  refine .ite (fun _ => ?_) fun _ => trivial
  refine .step ⟨⟨trivial, trivial⟩, trivial⟩ fun _ => .step ⟨⟨trivial, trivial⟩, trivial⟩ fun _ => ?_
  exact .step ⟨⟨trivial, trivial⟩, trivial⟩ fun _ => print_slotted _

theorem stopRec_slotted (recId : Tid) : (stopRec recId).Slotted reads := by
  refine .ite (fun _ => ?_) fun _ => trivial
  refine .step ⟨⟨trivial, trivial⟩, trivial⟩ fun _ => .step ⟨⟨trivial, trivial⟩, trivial⟩ fun _ => ?_
  exact .step ⟨⟨trivial, trivial⟩, trivial⟩ fun _ => print_slotted _

/-- The number is read again after the thread has been joined. -/
theorem stop_slotted (other : ∀ t, reads t → atoi t ≠ maxScriptThread) :
    (stop cmdNum).Slotted reads := by
  have slots : ∀ a ∈ List.range 10, a < 10 := fun a ha => List.mem_range.mp ha
  unfold stop
  generalize List.range 10 = entries at slots ⊢
  refine .step ⟨⟨trivial, trivial⟩, trivial⟩ fun sendId =>
    .step ⟨⟨trivial, trivial⟩, trivial⟩ fun recId => ?_
  refine .step ⟨⟨trivial, trivial⟩, trivial⟩ fun gParamNum => ?_
  refine .ite (fun _ => wrongParameter_slotted cmdNum) fun _ =>
    .step ⟨⟨trivial, trivial⟩, trivial⟩ fun mode => ?_
  refine .ite (fun _ => ?_) fun _ => .ite (fun _ => stopSend_slotted sendId) fun _ => ?_
  · refine .bind (stopSend_slotted sendId) fun _ => .bind (stopRec_slotted recId) fun _ => ?_
    refine .bind (each_slotted slots) fun _ => .step ⟨⟨trivial, trivial⟩, trivial⟩ fun _ => ?_
    exact print_slotted _
  refine .ite (fun _ => stopRec_slotted recId) fun _ =>
    .step ⟨⟨trivial, trivial⟩, trivial⟩ fun word => ?_
  refine .ite (fun _ => .bind_op ⟨⟨trivial, trivial⟩, trivial⟩ fun token read => ?_) fun _ => ?_
  · apply Prog.Given.ite (fun _ => print_slotted _)
    intro range
    have inside := inside_of_range (fun h => range h.symm) (other token read)
    refine .step ⟨⟨inside, trivial⟩, trivial⟩ fun scId => .ite (fun _ => trivial) fun _ => ?_
    refine .step ⟨⟨trivial, trivial⟩, trivial⟩ fun _ =>
      .step ⟨⟨trivial, trivial⟩, trivial⟩ fun _ => ?_
    refine .bind_op ⟨⟨trivial, trivial⟩, trivial⟩ fun again readAgain => ?_
    refine .step ⟨⟨setScriptThreadID_inBounds (other again readAgain) 0, trivial⟩,
      trivial⟩ fun _ => ?_
    exact .step ⟨⟨trivial, trivial⟩, trivial⟩ fun _ => print_slotted _
  · exact wrongParameter_slotted cmdNum

/-! ### Slot ten -/

theorem runScript_given_iff : (runScript cmdNum).Given (Op.Reads reads) Op.InBounds ↔
    ∀ t, reads t → atoi t ≠ maxScriptThread := by
  constructor
  · intro inBounds t read ten
    have started := (inBounds.answer (r := (1 : Tid)) trivial).else_branch (by decide)
    have counted := (started.answer (r := (2 : Int)) trivial).else_branch (by decide)
    have passed := (counted.answer read).else_branch (by simp [ten, maxScriptThread])
    have inside : Inside (atoi t) := passed.1
    rw [ten] at inside
    exact absurd inside (by decide)
  · intro other
    exact (runScript_slotted cmdNum other).mono fun _ ho => ho.1.1

theorem stop_given_iff : (stop cmdNum).Given (Op.Reads reads) Op.InBounds ↔
    ∀ t, reads t → atoi t ≠ maxScriptThread := by
  constructor
  · intro inBounds t read ten
    have mode {word : Text} (hword : atoi word = 0) : t ≠ word := by
      rintro rfl
      rw [hword] at ten
      cases ten
    have handles := (inBounds.answer (r := (0 : Tid)) trivial).answer (r := (0 : Tid)) trivial
    have counted := (handles.answer (r := (2 : Int)) trivial).else_branch (by decide)
    have notAll := (counted.answer read).else_branch (mode (by decide))
    have notRec := (notAll.else_branch (mode (by decide))).else_branch (mode (by decide))
    have script := (notRec.answer (r := paramSc) trivial).then_branch rfl
    have passed := (script.answer read).else_branch (by simp [ten, maxScriptThread])
    have inside : Inside (atoi t) := passed.1
    rw [ten] at inside
    exact absurd inside (by decide)
  · intro other
    exact (stop_slotted cmdNum other).mono fun _ ho => ho.1.1

theorem Op.AtSlot.inBounds {slot : Int} {o : Op} (h : o.AtSlot slot) (inside : Inside slot) :
    o.InBounds := by
  cases o with
  | getScriptName | mallocScript | freeScript | getCountOfScriptRun | copyScript | scriptCmd =>
    obtain rfl : _ = slot := h
    exact inside
  | setCountOfScriptRun =>
    obtain rfl : _ = slot := h
    exact fun _ => inside
  | setScriptThreadID =>
    obtain rfl : _ = slot := h
    exact .inr (.inr inside)
  | _ => trivial

theorem scriptCmdProcess_given_iff : scriptCmdProcess.Given (Op.Reads reads) Op.InBounds ↔
    ∀ t, reads t → Inside (atoi t) := by
  rw [scriptCmdProcess_eq]
  constructor
  · intro inBounds t read
    exact ((inBounds.2 () trivial).2 t read).1 (by decide)
  · intro inside
    refine .step trivial fun _ => .bind_op trivial fun t read => ?_
    apply Prog.Given.of_only
    apply Prog.Only.mono _ scriptBody_atSlot
    intro o atSlot
    exact atSlot.inBounds (inside t read)

end Slots

/-! ### The two commands -/

section SlotRuns

variable {host : Host} {callee : Text → World → Except Fault World} {w v : World}
    {number : Text} {cmdNum : Nat}

theorem interp_still {o : Op} {r : o.Res} (still : o.Still)
    (hstep : interp host callee o w = .ok (r, v)) : v.params = w.params := by
  cases o with
  | setParams | getTokens | call => exact still.elim
  | paramNum =>
    cases hstep
    rfl
  | param i =>
    obtain ⟨-, rfl⟩ := reading_ok hstep
    rfl
  | _ =>
    simp only [interp] at hstep
    split at hstep
    · cases hstep
      rfl
    · cases hstep

theorem interp_reads {o : Op} {r : o.Res} (first : w.params.param 1 = .ok number)
    (hstep : interp host callee o w = .ok (r, v)) : o.Reads (· = number) r := by
  cases o with
  | param i =>
    obtain ⟨read, -⟩ := reading_ok hstep
    by_cases hi : i = 1
    · subst hi
      exact Except.ok.inj (read.symm.trans first)
    · simp [Op.Reads, hi]
  | _ => trivial

theorem Cmd.Slotted.runs {p : Cmd Unit} (h : p.Slotted (· = number))
    (first : w.params.param 1 = .ok number) :
    p.Leads (interp host callee) (· ≠ .bounds) (fun _ _ => True) w := by
  apply Prog.Given.leads (I := fun w => w.params.param 1 = .ok number) _ _ h first
  · intro o s r t slotted first hstep
    refine ⟨interp_reads first hstep, ?_⟩
    rw [interp_still slotted.2 hstep]
    exact first
  · intro o s e slotted hstep
    exact interp_gated slotted.1 hstep

theorem runScript_refuses (first : w.params.param 1 = .ok number)
    (refused : w.shared.thrCmdSendId = 0 ∨ (¬ Inside (atoi number) ∧ atoi number ≠ maxScriptThread)) :
    Refuses host callee (runScript cmdNum) w := by
  apply Prog.Leads.now rfl
  apply Prog.Leads.ite (fun _ => print_refuses _)
  intro started
  apply Prog.Leads.now rfl
  apply Prog.Leads.ite (fun _ => wrongParameter_refuses)
  intro _
  apply param_leads first
  apply Prog.Leads.ite (fun _ => wrongParameter_refuses)
  intro passed
  rcases refused with idle | ⟨outside, other⟩
  · exact absurd idle started
  · exact absurd (inside_of_range passed other) outside

theorem stop_refuses (first : w.params.param 1 = .ok number) (second : w.params.param 2 = .ok paramSc)
    (outside : ¬ Inside (atoi number)) (other : atoi number ≠ maxScriptThread) :
    Refuses host callee (stop cmdNum) w := by
  have mode {word : Text} (hword : atoi word = 0) : number ≠ word := by
    rintro rfl
    rw [hword] at outside
    exact outside (by decide)
  apply Prog.Leads.now rfl
  apply Prog.Leads.now rfl
  apply Prog.Leads.now rfl
  apply Prog.Leads.ite (fun _ => wrongParameter_refuses)
  intro _
  apply param_leads first
  rw [if_neg (mode (by decide)), if_neg (mode (by decide)), if_neg (mode (by decide))]
  apply param_leads second
  rw [if_pos rfl]
  apply param_leads first
  apply Prog.Leads.ite (fun _ => print_refuses _)
  intro passed
  exact absurd (inside_of_range (fun h => passed h.symm) other) outside

/-- The table is read where it has no entry. -/
theorem ten_fails {f : Tid → Cmd Unit} (ten : atoi number = maxScriptThread) :
    (Cmd.getScriptThreadID (atoi number) >>= f).Leads (interp host callee) (· = .bounds)
      (fun _ _ => False) w := by
  have outside : interp host callee (.getScriptThreadID (atoi number)) w = .error .bounds := by
    rw [ten]
    rfl
  apply Prog.Leads.bind_op
  · intro r t hstep
    cases outside.symm.trans hstep
  · intro e hstep
    exact Except.error.inj (hstep.symm.trans outside)

theorem runScript_ten (count : w.params.gParamNum = 2) (first : w.params.param 1 = .ok number)
    (started : w.shared.thrCmdSendId ≠ 0) (ten : atoi number = maxScriptThread) :
    (runScript cmdNum).Leads (interp host callee) (· = .bounds) (fun _ _ => False) w := by
  apply Prog.Leads.now rfl
  rw [if_neg started]
  apply Prog.Leads.now rfl
  rw [if_neg (by simp [count])]
  apply param_leads first
  dsimp only
  rw [if_neg (by simp [ten, maxScriptThread])]
  exact ten_fails ten

theorem stop_ten (count : w.params.gParamNum = 2) (first : w.params.param 1 = .ok number)
    (second : w.params.param 2 = .ok paramSc) (ten : atoi number = maxScriptThread) :
    (stop cmdNum).Leads (interp host callee) (· = .bounds) (fun _ _ => False) w := by
  have mode {word : Text} (hword : atoi word = 0) : number ≠ word := by
    rintro rfl
    rw [hword] at ten
    cases ten
  apply Prog.Leads.now rfl
  apply Prog.Leads.now rfl
  apply Prog.Leads.now rfl
  rw [if_neg (by simp [count])]
  apply param_leads first
  rw [if_neg (mode (by decide)), if_neg (mode (by decide)), if_neg (mode (by decide))]
  apply param_leads second
  rw [if_pos rfl]
  apply param_leads first
  dsimp only
  rw [if_neg (by simp [ten, maxScriptThread])]
  exact ten_fails ten

end SlotRuns

section SlotGates

variable {host : Host} {depth : Nat} {w : World} {n : Int} {f : Func} (l : CmdLine f)

theorem CmdLine.refuses_gate (refuses : l.Found fun p =>
    Refuses host (exec host depth) (f.run l.cmdNum) ⟨p, w.shared⟩) :
    Gate n (exec host (depth + 1) l.line w) w := by
  have leads : Refuses host (exec host depth) (cmdProc l.line) w :=
    l.leads fun p loaded => refuses w.params p loaded
  obtain ⟨w', hrun, unchanged⟩ := exec_leads leads
  refine ⟨?_, fun _ => ⟨w', hrun, unchanged⟩⟩
  rw [hrun]
  intro failed
  cases failed

theorem CmdLine.slotted_gate {number : Text} (first : l.Found fun p => p.param 1 = .ok number)
    (slotted : (f.run l.cmdNum).Slotted (· = number)) (inside : Inside n) :
    Gate n (exec host (depth + 1) l.line w) w := by
  refine ⟨fun hrun => ?_, fun outside => absurd inside outside⟩
  have runs : (cmdProc l.line).Leads (interp host (exec host depth)) (· ≠ .bounds)
      (fun _ _ => True) w :=
    l.leads fun p loaded => slotted.runs (first w.params p loaded)
  exact perform_error runs hrun rfl

theorem CmdLine.fails_gate
    (fails : l.Found fun p => (f.run l.cmdNum).Leads (interp host (exec host depth))
    (· = .bounds) (fun _ _ => False) ⟨p, w.shared⟩) : ¬ Gate n
      (exec host (depth + 1) l.line w) w := by
  obtain ⟨e, hrun, rfl⟩ := perform_fails (l.leads fun p loaded => fails w.params p loaded)
  exact fun gate => gate.inBounds hrun

end SlotGates

theorem runScript_gate_iff (host : Host) (depth : Nat) (w : World) (l : CmdLine .runScript)
    {number file : Text} (args : l.args = [number, file]) :
    Gate (atoi number) (exec host (depth + 1) l.line w) w ↔
      atoi number ≠ maxScriptThread ∨ w.shared.thrCmdSendId = 0 := by
  have first := l.found_arg (i := 0) (t := number) (by simp [args])
  have count : l.Found fun p => p.gParamNum = 2 := by simpa [args] using l.found_count
  constructor
  · intro gate
    by_contra reaches
    obtain ⟨ten, started⟩ := not_or.mp reaches
    apply l.fails_gate _ gate
    intro old p loaded
    exact runScript_ten (count old p loaded) (first old p loaded) started (by simpa using ten)
  · intro safe
    by_cases refused : w.shared.thrCmdSendId = 0 ∨ ¬ Inside (atoi number) ∧
      atoi number ≠ maxScriptThread
    · apply l.refuses_gate
      intro old p loaded
      exact runScript_refuses (first old p loaded) refused
    · obtain ⟨started, passed⟩ := not_or.mp refused
      have other := safe.resolve_right started
      apply l.slotted_gate first (runScript_slotted l.cmdNum _)
      · exact Classical.byContradiction fun outside => passed ⟨outside, other⟩
      · rintro t rfl
        exact other

theorem stop_gate_iff (host : Host) (depth : Nat) (w : World) (l : CmdLine .stop)
    {number : Text} (args : l.args = [number, paramSc]) :
    Gate (atoi number) (exec host (depth + 1) l.line w) w ↔ atoi number ≠ maxScriptThread := by
  have first := l.found_arg (i := 0) (t := number) (by simp [args])
  have second := l.found_arg (i := 1) (t := paramSc) (by simp [args])
  have count : l.Found fun p => p.gParamNum = 2 := by simpa [args] using l.found_count
  constructor
  · intro gate ten
    apply l.fails_gate _ gate
    intro old p loaded
    exact stop_ten (count old p loaded) (first old p loaded) (second old p loaded) ten
  · intro other
    by_cases inside : Inside (atoi number)
    · apply l.slotted_gate first (stop_slotted l.cmdNum _) inside
      rintro t rfl
      exact other
    · apply l.refuses_gate
      intro old p loaded
      exact stop_refuses (first old p loaded) (second old p loaded) inside other

/-- Both commands stay inside the tables of the slots but for slot ten, and the
thread does while it reads a slot inside them. -/
theorem slot_gates_iff (host : Host) (depth : Nat) (w : World) (reads : Text → Prop) (cmdNum : Nat) :
    (∀ (l : CmdLine .runScript) number file, l.args = [number, file] →
      (Gate (atoi number) (exec host (depth + 1) l.line w) w ↔
        atoi number ≠ maxScriptThread ∨ w.shared.thrCmdSendId = 0)) ∧
    (∀ (l : CmdLine .stop) number, l.args = [number, paramSc] →
      (Gate (atoi number) (exec host (depth + 1) l.line w) w ↔ atoi number ≠ maxScriptThread)) ∧
    ((runScript cmdNum).Given (Op.Reads reads) Op.InBounds ↔ ∀ t, reads t →
      atoi t ≠ maxScriptThread) ∧
    ((stop cmdNum).Given (Op.Reads reads) Op.InBounds ↔ ∀ t, reads t → atoi t ≠ maxScriptThread) ∧
    (scriptCmdProcess.Given (Op.Reads reads) Op.InBounds ↔ ∀ t, reads t → Inside (atoi t)) :=
  ⟨fun l _ _ => runScript_gate_iff host depth w l, fun l _ => stop_gate_iff host depth w l,
    runScript_given_iff cmdNum, stop_given_iff cmdNum, scriptCmdProcess_given_iff⟩

def slotTen : CmdLine .runScript where
  line := "runScript 10 f".toList
  name := "runScript".toList
  args := ["10".toList, "f".toList]
  cmdNum := 11
  tokens := by decide +kernel
  code := by decide
  func := rfl

def slotHost : Host := .willing (fun n => n + 3) (fun n => some (n + 1)) fun _ => none

def afterTest : Except Fault World := exec slotHost 1 "start test".toList bareWorld

/-- In the test mode `runScript 10 f` reads the handle after the last one. -/
theorem slotTen_outside : ¬ ∀ w, afterTest = .ok w → Gate 10 (exec slotHost 1 slotTen.line w) w := by
  intro gates
  have found : (afterTest.toOption.map fun w => w.shared.thrCmdSendId) = some 4 := by decide +kernel
  cases reached : afterTest with
  | error f => simp [reached, Except.toOption] at found
  | ok w =>
    have started : w.shared.thrCmdSendId = 4 := by simpa [reached, Except.toOption] using found
    apply slotTen.fails_gate _ (gates w reached)
    intro old p loaded
    have first : p.param 1 = .ok "10".toList := slotTen.found_arg rfl old p loaded
    apply runScript_ten _ first
    · simp [started]
    · decide
    · exact slotTen.found_count old p loaded

end AutoTest
