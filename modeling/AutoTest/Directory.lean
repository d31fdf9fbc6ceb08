import AutoTest.ChangeIp
import AutoTest.HandOver
import AutoTest.Nesting
import AutoTest.Simulation

/-!
# The directory of the phones

What the process is for is to know the phones: which client has which address,
and how many calls each has reported. Lines of the main thread and of the
scripts change it, and logs do.

* `Directory` is that knowledge, with three actions.
* `Process.action`: the action a step of the process stands for.
* `Process.directory_simulates`: whoever takes the steps, the process shows the
  directory after their actions.
-/

namespace AutoTest

open CString Strtok Program Cmd

/-- The counts of calls have no bound. -/
structure Directory where
  book : Book
  calls : Nat → Client → Nat

namespace Directory

inductive Action where
  | add (n : Client) (ipAddr : Text)
  | del (n : Client)
  /-- a double talk is of type 0, a treble talk of type 1 -/
  | call (type : Nat) (n : Client)
  deriving DecidableEq

def empty : Directory := ⟨fun _ => none, fun _ _ => 0⟩

def next : Action → Directory → Directory
  | .add n ipAddr, d => { d with book := Function.update d.book n (some ipAddr) }
  | .del n, d => { d with book := Function.update d.book n none }
  | .call type n, d =>
    { d with
      calls := Function.update d.calls type (Function.update (d.calls type) n (d.calls type n + 1)) }

/-- What an action makes of the entry of a client. -/
def Action.entry (n : Client) : Action → Option (Option Text)
  | .add m ipAddr => if m = n then some (some ipAddr) else none
  | .del m => if m = n then some none else none
  | .call _ _ => none

/-- An entry is what the last action on its client made of it. -/
theorem book_after (actions : List Action) (n : Client) (d : Directory) :
    (after next actions d).book n =
      ((actions.filterMap (Action.entry n)).getLast?).getD (d.book n) := by
  induction actions generalizing d with
  | nil => rfl
  | cons a actions ih =>
    rw [after_cons, ih]
    have moved : (next a d).book n = (a.entry n).getD (d.book n) := by
      cases a with
      | add m ipAddr | del m =>
        by_cases own : m = n
        · simp [next, Action.entry, own]
        · simp [next, Action.entry, own, Ne.symm own]
      | call type m => rfl
    cases acts : a.entry n with
    | none => simp [acts, moved]
    | some entry => simp [acts, moved, List.getLast?_cons]

/-- A count is the number of calls that were reported. -/
theorem calls_after (actions : List Action) (type : Nat) (n : Client) (d : Directory) :
    (after next actions d).calls type n = d.calls type n + actions.count (.call type n) := by
  induction actions generalizing d with
  | nil => rfl
  | cons a actions ih =>
    rw [after_cons, ih]
    cases a with
    | add m ipAddr => simp [next]
    | del m => simp [next]
    | call type' m =>
      by_cases row : type' = type
      · subst row
        by_cases own : m = n
        · subst own
          simp [next]
          omega
        · simp [next, own, Ne.symm own]
      · simp [next, row, Ne.symm row]

end Directory

/-- The registry and the counters show the directory. A counter stops at the
largest `int`. -/
structure Shows (inet : Inet) (s : Shared) (d : Directory) : Prop where
  faithful : Faithful inet s.net
  book : s.net.book = d.book
  calls : ∀ type n, s.gSuccessCall type n = min (d.calls type n : Int) intMax

/-! ## The actions -/

/-- The action of a line, on the registry it finds. -/
def lineAction (host : Host) (line : Text) (net : Net) : Option Directory.Action :=
  match lineTokens line with
  | some (name :: t :: args) =>
    match commandFunc name, clientIndex (atoi t), args with
    | some .addClient, some n, ipAddr :: _ =>
      if net.book n = none ∧ (host.inet.pton ipAddr).isSome ∧ net.created host.socket n then
        some (.add n ipAddr)
      else none
    | some .delClient, some n, _ => some (.del n)
    | _, _, _ => none
  | _ => none

/-- The action of a log text. -/
def logAction (text : Text) : Option Directory.Action :=
  match getLogMsgIssueId text, loggedClient text with
  | some .suspend, .ok (some n) => some (.del n)
  | some .talkBuild, .ok (some n) => some (.call 0 n)
  | some .talkConference, .ok (some n) => some (.call 1 n)
  | _, _ => none

/-- The line that a script thread is about to pass to `cmd_proc`. -/
def Thread.passes : Thread → Option Text
  | .script ⟨_, _, _, _, .op (.call line) _⟩ => some line
  | _ => none

def Process.action (host : Host) : ProcessEvent → Process → Option Directory.Action
  | .line _ line, s => lineAction host line s.world.shared.net
  | .advance id, s =>
    ((s.thread id).bind Thread.passes).bind fun line => lineAction host line s.world.shared.net
  | .log _ text, _ => logAction text

/-! ## The registry -/

section Registry

variable {inet : Inet} {net : Net}

/-- A `suspended` log empties the entry, whether it was in use or not. -/
theorem remove_refines (h : Faithful inet net) (n : Client) :
    Refines inet (Function.update net.book n none) net (net.remove n) := by
  obtain ⟨flag, text, addr⟩ := net.remove_self n
  have emptied : (net.remove n).book n = none := by simp [book_none_iff, flag, used, unused]
  have read : (net.remove n).getClientIpAddr n = some [] := by simp [Net.getClientIpAddr, text]
  by_cases before : net.book n = none
  · have others (m : Client) (hm : m ≠ n) : (net.remove n).book m = net.book m := by
      simp [Net.book, (Net.remove_other hm net).flag, (Net.remove_other hm net).text]
    have stays : Function.update net.book n none = net.book := by
      rw [← before, Function.update_eq_self]
    have same : (net.remove n).book = net.book := by
      funext m
      by_cases own : m = n
      · rw [own, emptied, before]
      · exact others m own
    obtain ⟨noText, noAddr⟩ := h.empty n before
    have free : net.gClientFlag n = unused :=
      (h.flags n).resolve_left ((book_none_iff n).mp before)
    refine ⟨same.trans stays.symm, fun m _ => ?_, fun m => ?_, fun m t hm => ?_, fun m hm => ?_⟩
    · by_cases own : m = n
      · subst own
        refine ⟨by simp [flag, free], read.trans noText.symm, addr.trans noAddr.symm, ?_⟩
        simp [Net.getSocket, flag, free]
      · exact (Net.remove_other own net).seen
    · by_cases own : m = n
      · exact .inr (own ▸ flag)
      · rw [(Net.remove_other own net).flag]
        exact h.flags m
    · have apart : m ≠ n := by
        rintro rfl
        rw [emptied] at hm
        cases hm
      obtain ⟨v, hv, haddr⟩ := h.holds m t ((others m apart).symm.trans hm)
      exact ⟨v, hv, (Net.remove_other apart net).addr.trans haddr⟩
    · by_cases own : m = n
      · subst own
        exact ⟨read, addr⟩
      · obtain ⟨noText, noAddr⟩ := h.empty m ((others m own).symm.trans hm)
        exact ⟨(Net.remove_other own net).seen.text.trans noText,
          (Net.remove_other own net).addr.trans noAddr⟩
  · exact .update h (fun m hm => Net.remove_other hm net) emptied before (.inr flag) (by simp)
      fun _ => ⟨read, addr⟩

end Registry

/-! ## Steps beside the directory -/

/-- The registry and the counters are the same. -/
def Shared.SameDirectory (s t : Shared) : Prop := t.net = s.net ∧ t.gSuccessCall = s.gSuccessCall

/-- Neither an entry of the registry nor a counter is written. -/
def Op.Beside (o : Op) : Prop := o.group ≠ .registry ∧ o.group ≠ .calls

theorem Cmd.Touches.beside {α : Type} {p : Cmd α} {groups : List Group} (h : p.Touches groups)
    (registry : .registry ∉ groups) (calls : .calls ∉ groups) : p.Only Op.Beside :=
  Prog.Only.mono (fun _ ho => ⟨fun same => registry (same ▸ ho), fun same => calls (same ▸ ho)⟩) h

theorem Op.Beside.writes {o : Op} (h : o.Beside) : Part.calls ∉ o.writes := by
  cases o with
  | setCountOfSuccessCall => exact absurd rfl h.2
  | _ => simp [Op.writes]

namespace Process

variable {host : Host} {self : Option Tid} {line : Text} {s t : Process} {d : Directory}

theorem interp_beside {o : Op} {r : o.Res} {w v : World} (beside : o.Beside)
    (h : interp host (fun _ => .ok) o w = .ok (r, v)) : w.shared.SameDirectory v.shared := by
  have calls : v.shared.gSuccessCall = w.shared.gSuccessCall :=
    interp_frame (p := .calls) beside.writes h
  by_cases passes : o.group = .nested
  · obtain ⟨l, rfl⟩ := Op.call_of_group passes
    cases h
    exact ⟨rfl, rfl⟩
  · exact ⟨interp_net beside.1 passes h, calls⟩

theorem operate_beside {o : Op} {r : o.Res} (beside : o.Beside)
    (h : operate host self line o s = .ok (r, t)) : s.world.shared.SameDirectory t.world.shared := by
  cases o with
  | pthreadKill id =>
    obtain rfl := operate_kill h
    exact ⟨rfl, rfl⟩
  | pthreadJoin id =>
    obtain ⟨-, rfl⟩ := operate_join h
    exact ⟨rfl, rfl⟩
  | pthreadCreate routine => rcases operate_create h with ⟨-, rfl⟩ |
    ⟨id, -, -, -, rfl⟩ <;> exact ⟨rfl, rfl⟩
  | msgsnd m =>
    obtain ⟨w, hstep, rfl⟩ := operate_msgsnd h
    exact interp_beside beside hstep
  | _ =>
    obtain ⟨w, hstep, rfl⟩ := operate_still rfl h
    exact interp_beside beside hstep

/-- What is left of a script thread is operations of script threads. -/
def Scripted (s : Process) : Prop := ∀ id w, s.Runs id w → w.rest.Touches loopGroups

theorem Scripted.mono (h : s.Scripted) (threads : ∀ id w, t.Runs id w → s.Runs id w) : t.Scripted :=
  fun id w runs => h id w (threads id w runs)

theorem Scripted.endThread (h : s.Scripted) (id : Tid) : (s.endThread id).Scripted :=
  h.mono fun _ _ runs => (runs_endThread.mp runs).2

theorem operate_scripted {o : Op} {r : o.Res} (scripted : s.Scripted)
    (h : operate host self line o s = .ok (r, t)) : t.Scripted := by
  cases o with
  | pthreadKill id =>
    obtain rfl := operate_kill h
    exact scripted
  | pthreadJoin id =>
    obtain ⟨-, rfl⟩ := operate_join h
    exact scripted.mono fun _ _ runs => (runs_endThread.mp runs).2
  | pthreadCreate routine =>
    rcases operate_create h with ⟨-, rfl⟩ | ⟨id, -, -, -, rfl⟩
    · exact scripted
    · intro i w runs
      rcases runs_setThread.mp runs with ⟨-, new⟩ | ⟨-, old⟩
      · cases routine with
        | scriptCmdProcess =>
          obtain rfl : Worker.created line = w := by simpa [Thread.created] using new
          exact scriptCmdProcess_touches
        | cmdSend | retReceive => simp [Thread.created] at new
      · exact scripted i w old
  | msgsnd m =>
    obtain ⟨w, -, rfl⟩ := operate_msgsnd h
    exact scripted
  | _ =>
    obtain ⟨w, -, rfl⟩ := operate_still rfl h
    exact scripted

/-- A handler that keeps the directory, to its end or that of its thread. -/
def Holds (shared : Shared) (s : Process) : Prop := shared.SameDirectory s.world.shared ∧ s.Scripted

theorem Holds.refl (scripted : s.Scripted) : Holds s.world.shared s := ⟨⟨rfl, rfl⟩, scripted⟩

/-- An operation that does not return is undefined, or ends the thread at work. -/
theorem fails_safe {I : Process → Prop} {o : Op} {e : Halt}
    (ends : ∀ id, self = some id → o = .pthreadKill id → I (s.endThread id))
    (h : operate host self line o s = .error e) : e.Safe I := by
  cases e with
  | fault f => trivial
  | ended u =>
    obtain ⟨id, kill, own, rfl⟩ := operate_ended h
    exact ends id own kill

theorem beside_holds {shared : Shared} {p : Cmd Unit} (beside : p.Only Op.Beside)
    (holds : Holds shared s)
    (h : settle (p.run (operate host self line) s) = .ok t) : Holds shared t := by
  refine settle_leads (beside.leads ?_ ?_ holds) h
  · rintro o u r v beside ⟨⟨net, calls⟩, scripted⟩ hop
    obtain ⟨net', calls'⟩ := operate_beside beside hop
    exact ⟨⟨net'.trans net, calls'.trans calls⟩, operate_scripted scripted hop⟩
  · rintro o u e - ⟨same, scripted⟩ hop
    exact fails_safe (fun id _ _ => ⟨same, scripted.endThread id⟩) hop

/-- A handler that neither ends a thread nor queues a message works on the world alone. -/
theorem settle_mild {p : Cmd Unit} (mild : p.Only fun o : Op => o.moves = false)
    (h : settle (p.run (operate host self line) s) = .ok t) :
    ∃ w last, perform host (fun _ => .ok) p s.world = .ok w ∧
      t = { s with world := w, last := last } := by
  induction p generalizing s with
  | pure a =>
    obtain rfl : s = t := Except.ok.inj h
    exact ⟨s.world, s.last, rfl, rfl⟩
  | op o k ih =>
    cases hop : operate host self line o s with
    | error e =>
      rw [Prog.run_op_error hop] at h
      cases e with
      | fault f => cases h
      | ended u =>
        obtain ⟨id, rfl, -⟩ := operate_ended hop
        cases mild.1
    | ok ru =>
      obtain ⟨w, hstep, hu⟩ := operate_still mild.1 hop
      rw [Prog.run_op_ok hop] at h
      obtain ⟨v, last, hrun, rfl⟩ := ih ru.1 (mild.2 ru.1) h
      refine ⟨v, last, ?_, by rw [hu]⟩
      rw [hu] at hrun
      rw [← hrun]
      simp only [perform]
      rw [Prog.run_op_ok hstep]

/-! ### Lines -/

/-- What a line does: an unknown name is reported, and a known one is the first
token of the line. -/
theorem handle_dispatch (h : handle host self line s = .ok t) : ∃ p name,
    s.world.params.load line = .ok p ∧ p.param 0 = .ok name ∧
      settle ((dispatch name).run (operate host self line)
        { s with world := { s.world with params := p }, last := some line }) = .ok t := by
  unfold handle cmdProc at h
  cases hload : s.world.params.load line with
  | error f =>
    have stuck : operate host self line (.setParams line) s = .error (.fault f) := by
      simp only [operate, interp, hload, writing]
    rw [Cmd.setParams, Prog.op_bind, Prog.run_op_error stuck] at h
    cases h
  | ok p =>
    have loaded : operate host self line (.setParams line) s =
        .ok ((), { s with world := { s.world with params := p }, last := some line }) := by
      simp only [operate, interp, hload, writing, Op.tokenised]
    rw [Cmd.setParams, Prog.op_bind, Prog.run_op_ok loaded, Prog.pure_bind', Cmd.param,
      Prog.op_bind] at h
    cases first : p.param 0 with
    | error f =>
      have stuck : operate host self line (.param 0)
          { s with world := { s.world with params := p }, last := some line } =
            .error (.fault f) := by
        simp only [operate, interp, first, reading]
      rw [Prog.run_op_error stuck] at h
      cases h
    | ok name =>
      have read : operate host self line (.param 0)
          { s with world := { s.world with params := p }, last := some line } =
            .ok (name, { s with world := { s.world with params := p }, last := some line }) := by
        simp only [operate, interp, first, reading, Op.tokenised]
      rw [Prog.run_op_ok read, Prog.pure_bind'] at h
      exact ⟨p, name, rfl, first, h⟩

end Process

section Lines

variable {host : Host} {line name t : Text} {args : List Text} {net : Net} {d : Directory}

theorem lineAction_none (tokens : ∀ name t args, lineTokens line = some (name :: t :: args) →
    commandFunc name ≠ some .addClient ∧ commandFunc name ≠ some .delClient) : lineAction host line
      net = none := by
  unfold lineAction
  split
  · rename_i name t args split
    obtain ⟨notAdd, notDel⟩ := tokens name t args split
    split
    · rename_i named _
      exact absurd named notAdd
    · rename_i named _
      exact absurd named notDel
    · rfl
  · rfl

/-- The book after an `add` is that after its action. -/
theorem lineAction_add {ipAddr : Text} (tokens : lineTokens line = some (name :: t :: ipAddr :: args))
    (named : commandFunc name = some .addClient) (shown : net.book = d.book) :
    net.book.add host.inet (net.created host.socket (atoi t)) (atoi t) ipAddr =
      (after Directory.next (lineAction host line net).toList d).book := by
  unfold Book.add lineAction
  simp only [tokens, named]
  cases hindex : clientIndex (atoi t) with
  | none => exact shown
  | some n =>
    have number := clientIndex_some hindex
    simp only [number]
    by_cases fits : net.book n = none ∧ (host.inet.pton ipAddr).isSome ∧ net.created host.socket n
    · rw [if_pos fits, if_pos fits]
      simp [Directory.next, shown]
    · rw [if_neg fits, if_neg fits]
      exact shown

theorem lineAction_del (tokens : lineTokens line = some (name :: t :: args))
    (named : commandFunc name = some .delClient) (shown : net.book = d.book) :
    net.book.del (atoi t) = (after Directory.next (lineAction host line net).toList d).book := by
  unfold Book.del lineAction
  simp only [tokens, named]
  cases clientIndex (atoi t) with
  | none => exact shown
  | some n => simp [Directory.next, shown]

theorem lineAction_calls :
    (after Directory.next (lineAction host line net).toList d).calls = d.calls := by
  unfold lineAction
  repeat' split
  all_goals rfl

end Lines

/-! ## Steps of the process -/

/-- One step from a state that shows `d` to one that shows `d'`, where the
entries of the registry that the book does not tell apart look the same. -/
structure Advances (inet : Inet) (d' : Directory) (s t : Process) : Prop where
  registry : Refines inet d'.book s.world.shared.net t.world.shared.net
  calls : ∀ type n, t.world.shared.gSuccessCall type n = min (d'.calls type n : Int) intMax
  scripted : t.Scripted

namespace Process

variable {host : Host} {self : Option Tid} {line : Text} {s t : Process} {d : Directory}

/-- What every state is: it shows the directory, and its scripts are scripts. -/
def Displays (inet : Inet) (s : Process) (d : Directory) : Prop :=
  Shows inet s.world.shared d ∧ s.Scripted

theorem Displays.holds {inet : Inet} (h : s.Displays inet d) (holds : Holds s.world.shared t) :
    Advances inet d s t := by
  obtain ⟨⟨net, calls⟩, scripted⟩ := holds
  refine ⟨?_, fun type n => calls ▸ h.1.calls type n, scripted⟩
  rw [net, ← h.1.book]
  exact .same h.1.faithful

/-- A handler without threads that changes the registry alone. -/
theorem Displays.registry {inet : Inet} {d' : Directory} {p : Params} {out : List Text} {net : Net}
    {last : Option Text} (h : s.Displays inet d)
    (refines : Refines inet d'.book s.world.shared.net net) (calls : d'.calls = d.calls) :
    Advances inet d' s
      { s with world := World.withNet { s.world with params := p } net out, last := last } :=
  ⟨refines, fun type n => calls ▸ h.1.calls type n, h.2⟩

section Registry

variable {name : Text} {args : List Text} {p : Params} {w : World} {last : Option Text} {cmdNum : Nat}

theorem addClient_advances (displays : s.Displays host.inet d)
    (tokens : lineTokens line = some (name :: args))
    (own : Params.Loaded (name :: args) s.world.params p) (named : commandFunc name = some .addClient)
    (h : perform host (fun _ => .ok) (addClient cmdNum) { s.world with params := p } = .ok w) :
    Advances host.inet (after Directory.next (lineAction host line s.world.shared.net).toList d) s
      { s with world := w, last := last } := by
  have count := own.count
  by_cases few : p.gParamNum < 2
  · have action : lineAction host line s.world.shared.net = none := by
      rcases args with _ | ⟨t, _ | ⟨ipAddr, more⟩⟩
      · simp [lineAction, tokens]
      · simp [lineAction, tokens, named]
      · simp at count
        omega
    obtain ⟨out, hnet⟩ :=
      addClient_short host (fun _ => .ok) (w := { s.world with params := p }) cmdNum few
    simp only [perform, hnet, Except.ok.injEq] at h
    subst h
    rw [action]
    exact displays.holds ⟨⟨rfl, rfl⟩, displays.2⟩
  · rcases args with _ | ⟨t, _ | ⟨ipAddr, more⟩⟩
    case cons.cons =>
      obtain ⟨out, hnet⟩ := addClient_net host (fun _ => .ok)
        (w := { s.world with params := p }) cmdNum (Int.not_lt.mp few) (own.own 1 (by simp))
        (own.own 2 (by simp))
      simp only [perform, hnet, Except.ok.injEq] at h
      subst h
      have refines := add_refines displays.1.faithful host.socket (atoi t) ipAddr
      rw [lineAction_add tokens named displays.1.book] at refines
      exact displays.registry refines lineAction_calls
    all_goals
      simp at count
      omega

theorem delClient_advances (displays : s.Displays host.inet d)
    (tokens : lineTokens line = some (name :: args))
    (own : Params.Loaded (name :: args) s.world.params p) (named : commandFunc name = some .delClient)
    (h : perform host (fun _ => .ok) (delClient cmdNum) { s.world with params := p } = .ok w) :
    Advances host.inet (after Directory.next (lineAction host line s.world.shared.net).toList d) s
      { s with world := w, last := last } := by
  have count := own.count
  obtain ⟨t, first⟩ : ∃ t, p.param 1 = .ok t := by
    unfold perform at h
    split at h
    · rename_i hrun
      obtain ⟨t, first, -⟩ := param_of_run hrun
      exact ⟨t, first⟩
    · cases h
  obtain ⟨out, hnet⟩ :=
    delClient_net host (fun _ => .ok) (w := { s.world with params := p }) cmdNum first
  simp only [perform, hnet, Except.ok.injEq] at h
  subst h
  cases args with
  | nil =>
    have few : p.gParamNum < 1 := by simp [count]
    have action : lineAction host line s.world.shared.net = none := by simp [lineAction, tokens]
    rw [action, if_pos few]
    exact displays.holds ⟨⟨rfl, rfl⟩, displays.2⟩
  | cons u more =>
    have enough : ¬ p.gParamNum < 1 := by
      simp at count
      omega
    obtain rfl : u = t := Except.ok.inj ((own.own 1 (by simp)).symm.trans first)
    have refines := del_refines displays.1.faithful (atoi u)
    rw [lineAction_del tokens named displays.1.book] at refines
    rw [if_neg enough]
    exact displays.registry refines lineAction_calls

/-- `changeIp` leaves the directory alone. -/
theorem changeIp_holds (displays : s.Displays host.inet d)
    (h : perform host (fun _ => .ok) (changeClientIpAddr cmdNum)
      { s.world with params := p } = .ok w) :
    Holds s.world.shared { s with world := w, last := last } := by
  obtain ⟨out, hnet⟩ : ∃ out, (changeClientIpAddr cmdNum).run (interp host fun _ => .ok)
      { s.world with params := p } =
        .ok ((), World.withNet { s.world with params := p } s.world.shared.net out) := by
    unfold perform at h
    split at h
    · rename_i hrun
      by_cases short : p.gParamNum < 2
      · exact changeClientIpAddr_short (w := { s.world with params := p }) cmdNum short
      · have reads := paramNum_of_run hrun
        rw [if_neg short] at reads
        obtain ⟨t, first, reads⟩ := param_of_run reads
        obtain ⟨ipAddr, second, -⟩ := param_of_run reads
        exact changeClientIpAddr_net (w := { s.world with params := p })
          displays.1.faithful.flags cmdNum
          (Int.not_lt.mp short) first second
    · cases h
  simp only [perform, hnet, Except.ok.injEq] at h
  subst h
  exact ⟨⟨rfl, rfl⟩, displays.2⟩

end Registry

theorem handle_advances (displays : s.Displays host.inet d) (h : s.handle host self line = .ok t) :
    Advances host.inet
      (after Directory.next (lineAction host line s.world.shared.net).toList d) s t := by
  obtain ⟨p, name, hload, first, h⟩ := handle_dispatch h
  generalize hs' : ({ s with world := { s.world with params := p }, last := some line } : Process) =
    s' at h
  have start : Holds s.world.shared s' := by
    subst hs'
    exact ⟨⟨rfl, rfl⟩, displays.2⟩
  have aside (action : lineAction host line s.world.shared.net = none)
      (holds : Holds s.world.shared t) :
      Advances host.inet
        (after Directory.next (lineAction host line s.world.shared.net).toList d) s t := by
    rw [action]
    exact displays.holds holds
  unfold dispatch at h
  cases code : getCmdCode name with
  | none =>
    simp only [code] at h
    refine aside (lineAction_none fun word t args tokens => ?_) (beside_holds ?_ start h)
    · obtain ⟨p', same, own⟩ := Params.load_own tokens s.world.params
      cases same.symm.trans hload
      obtain rfl : word = name := Except.ok.inj ((own.own 0 (by simp)).symm.trans first)
      simp [commandFunc, code]
    · exact (@say_touches [] _).beside (by decide) (by decide)
  | some cmdNum =>
    simp only [code] at h
    obtain ⟨args, tokens, own⟩ := dispatched_name hload first code
    have func : commandFunc name = some (cmdEntry cmdNum).func := by simp [commandFunc, code]
    have touches := (cmdEntry cmdNum).func.run_touches cmdNum
    generalize (cmdEntry cmdNum).func = f at h touches func
    have other (notAdd : f ≠ .addClient) (notDel : f ≠ .delClient) :
        lineAction host line s.world.shared.net = none := by
      refine lineAction_none fun word t args' tokens' => ?_
      obtain ⟨rfl, -⟩ := List.cons.inj (Option.some.inj (tokens.symm.trans tokens'))
      simp [func, notAdd, notDel]
    cases f with
    | addClient =>
      obtain ⟨w, last, hperform, rfl⟩ := settle_mild (Func.run_mild (f := .addClient) rfl cmdNum) h
      subst hs'
      exact addClient_advances displays tokens own func hperform
    | delClient =>
      obtain ⟨w, last, hperform, rfl⟩ := settle_mild (Func.run_mild (f := .delClient) rfl cmdNum) h
      subst hs'
      exact delClient_advances displays tokens own func hperform
    | changeClientIpAddr =>
      obtain ⟨w, last, hperform, rfl⟩ :=
        settle_mild (Func.run_mild (f := .changeClientIpAddr) rfl cmdNum) h
      subst hs'
      exact aside (other (by simp) (by simp)) (changeIp_holds displays hperform)
    | _ =>
      have beside := touches.beside (by decide) (by decide)
      exact aside (other (by simp) (by simp)) (beside_holds beside start h)

/-! ### Logs -/

theorem syslogProcess_still (text : Text) :
    (syslogProcess text).Only fun o : Op => o.moves = false := by
  have count (type : Nat) (clientNum : Int) : (countCall type clientNum).Only fun o : Op =>
      o.moves = false :=
    .bind_op rfl fun _ => ⟨rfl, fun _ => trivial⟩
  unfold syslogProcess
  cases getLogMsgIssueId text with
  | none => trivial
  | some issueId =>
    dsimp only
    cases getLogClientNum text with
    | error f => exact ⟨rfl, fun r => r.elim⟩
    | ok clientNum =>
      apply Prog.Only.ite
      · intro _
        cases issueId with
        | suspend =>
          exact .bind_op rfl fun _ => .bind_op rfl fun _ => .bind_op rfl fun _ =>
            .bind_op rfl fun _ =>
            .bind_op rfl fun _ => ⟨rfl, fun _ => trivial⟩
        | talkBuild => exact count 0 clientNum
        | talkConference => exact count 1 clientNum
      · exact fun _ => trivial

theorem Displays.counted {last : Option Text} (displays : s.Displays host.inet d)
    (type : Nat) (n : Client) :
    Advances host.inet (Directory.next (.call type n) d) s
      { s.setShared (s.world.shared.countedCall type n) with last := last } := by
  have same : (Directory.next (.call type n) d).book = s.world.shared.net.book := displays.1.book.symm
  refine ⟨same ▸ .same displays.1.faithful, fun type' m => ?_, displays.2⟩
  have shown := displays.1.calls type n
  have low : 0 ≤ s.world.shared.gSuccessCall type n := by
    simp only [shown, intMax]
    omega
  have high : s.world.shared.gSuccessCall type n ≤ intMax := by
    simp only [shown]
    omega
  have counted : (if int32 (s.world.shared.gSuccessCall type n + 1) < 0 then
        s.world.shared.gSuccessCall type n
      else int32 (s.world.shared.gSuccessCall type n + 1)) =
        min ((d.calls type n + 1 : Nat) : Int) intMax := by
    have next := int32_next low high
    simp only [intMax] at *
    split_ifs <;> omega
  by_cases row : type' = type
  · subst row
    by_cases own : m = n
    · subst own
      simpa [setShared, Shared.countedCall, Directory.next] using counted
    · simpa [setShared, Shared.countedCall, Directory.next, own] using displays.1.calls type' m
  · simpa [setShared, Shared.countedCall, Directory.next, row] using displays.1.calls type' m

theorem log_advances {text : Text} (displays : s.Displays host.inet d)
    (h : settle ((syslogProcess text).run (operate host self line) s) = .ok t) :
    Advances host.inet (after Directory.next (logAction text).toList d) s t := by
  obtain ⟨w, last, hperform, rfl⟩ := settle_mild (syslogProcess_still text) h
  rw [perform_syslogProcess, logEffect] at hperform
  unfold logAction
  have same : Holds s.world.shared s := .refl displays.2
  cases event : getLogMsgIssueId text with
  | none =>
    simp only [event, Except.ok.injEq] at hperform
    subst hperform
    exact displays.holds same
  | some issueId =>
    simp only [event] at hperform
    cases named : loggedClient text with
    | error f => simp [named] at hperform
    | ok client =>
      cases client with
      | none =>
        simp only [named, Except.ok.injEq] at hperform
        subst hperform
        cases issueId <;> exact displays.holds same
      | some n =>
        simp only [named, Except.ok.injEq] at hperform
        subst hperform
        cases issueId with
        | suspend =>
          have refines := remove_refines displays.1.faithful n
          rw [displays.1.book] at refines
          exact ⟨refines, displays.1.calls, displays.2⟩
        | talkBuild => exact displays.counted 0 n
        | talkConference => exact displays.counted 1 n

/-! ### Threads -/

theorem Displays.of_advances {inet : Inet} {d' : Directory} (h : Advances inet d' s t) :
    t.Displays inet d' :=
  ⟨⟨h.registry.faithful, h.registry.book, h.calls⟩, h.scripted⟩

theorem Scripted.setThread {id : Tid} {w : Worker} (h : s.Scripted)
    (rest : w.rest.Touches loopGroups) : (s.setThread id (some (.script w))).Scripted := by
  intro i v runs
  rcases runs_setThread.mp runs with ⟨-, new⟩ | ⟨-, old⟩
  · obtain rfl : w = v := by simpa using new
    exact rest
  · exact h i v old

theorem Scripted.other {id : Tid} {stage : Sender} (h : s.Scripted) :
    (s.setThread id (some (.send stage))).Scripted := by
  intro i v runs
  rcases runs_setThread.mp runs with ⟨-, new⟩ | ⟨-, old⟩
  · simp at new
  · exact h i v old

theorem advanceSend_holds {id : Tid} {stage : Sender} (displays : s.Displays host.inet d)
    (h : s.advanceSend id stage = .ok t) : Holds s.world.shared t := by
  unfold advanceSend at h
  cases hstep : stage.step s.world.shared with
  | error f => simp [hstep] at h
  | ok r =>
    obtain ⟨next, shared, gone⟩ := r
    simp only [hstep, Except.ok.injEq] at h
    subst h
    obtain ⟨same, -⟩ := Sender.step_moves hstep
    have net : shared.net = s.world.shared.net := by rw [same]
    have calls : shared.gSuccessCall = s.world.shared.gSuccessCall := by rw [same]
    refine ⟨⟨net, calls⟩, ?_⟩
    exact Scripted.other (s := s.setShared shared) displays.2

theorem advanceScript_advances {id : Tid} {w : Worker} (runs : s.Runs id w)
    (displays : s.Displays host.inet d) (h : s.advanceScript host id w = .ok t) :
    Advances host.inet (after Directory.next
      ((Thread.passes (.script w)).bind fun line => lineAction host line s.world.shared.net).toList d)
        s t := by
  have touches := displays.2 id w runs
  cases hrest : w.rest with
  | pure a => simp [advanceScript, hrest] at h
  | op o k =>
    rw [hrest] at touches
    have groups : o.group ∈ loopGroups := touches.1
    have silent (noCall : ∀ line, o ≠ .call line) : Thread.passes (.script w) = none := by
      obtain ⟨slot, file, cleared, rest⟩ := w
      cases hrest
      cases o with
      | call line => exact absurd rfl (noCall line)
      | _ => rfl
    by_cases exits : o = .pthreadExit
    · subst exits
      obtain rfl : s.endThread id = t := by simpa [advanceScript, hrest] using h
      rw [silent (by simp)]
      exact displays.holds ⟨⟨rfl, rfl⟩, displays.2.endThread id⟩
    by_cases passes : ∃ line, o = .call line
    · obtain ⟨line, rfl⟩ := passes
      have passed : Thread.passes (.script w) = some line := by
        obtain ⟨slot, file, cleared, rest⟩ := w
        cases hrest
        rfl
      rw [advanceScript_call hrest] at h
      rw [passed]
      have moved : (s.setThread id (some (.script { w with rest := k () }))).Displays host.inet d :=
        ⟨displays.1, displays.2.setThread (touches.2 ())⟩
      obtain ⟨registry, calls, scripted⟩ := handle_advances moved h
      exact ⟨registry, calls, scripted⟩
    · have noCall : ∀ line, o ≠ .call line := fun line same => passes ⟨line, same⟩
      rw [advanceScript_op hrest exits noCall] at h
      rw [silent noCall]
      cases hstep : interp host (fun _ => .ok) o s.world with
      | error f => simp [hstep] at h
      | ok answer =>
        simp only [hstep, Except.ok.injEq] at h
        subst h
        have beside : o.Beside := by
          constructor <;> (intro same; simp [same, loopGroups] at groups)
        refine displays.holds ⟨interp_beside beside hstep, ?_⟩
        exact Scripted.setThread (s := { s with world := answer.2 }) displays.2 (touches.2 answer.1)

/-! ## Runs -/

theorem step_advances {e : ProcessEvent} (displays : s.Displays host.inet d)
    (h : s.step host e = .ok t) :
    Advances host.inet (after Directory.next (s.action host e).toList d) s t := by
  cases e with
  | line self line =>
    simp only [step] at h
    split at h
    · exact handle_advances displays h
    · cases h
  | log id text =>
    simp only [step] at h
    split at h
    · exact log_advances displays h
    · cases h
  | advance id =>
    simp only [step] at h
    cases hthread : s.thread id with
    | none => simp [hthread] at h
    | some thread =>
      simp only [action, hthread, Option.bind_some]
      cases thread with
      | receive => simp [hthread] at h
      | script w =>
        simp only [hthread] at h
        exact advanceScript_advances hthread displays h
      | send stage =>
        simp only [hthread] at h
        exact displays.holds (advanceSend_holds displays h)

theorem directory_simulates (host : Host) :
    Simulates (step host) (action host) Directory.next (Displays host.inet) := by
  constructor
  · intro e s t d a displays h acts
    have advances := step_advances displays h
    rw [acts] at advances
    exact .of_advances advances
  · intro e s t d displays h acts
    have advances := step_advances displays h
    rw [acts] at advances
    exact .of_advances advances

/-- The process before its first line, with the descriptors it was given. -/
def fresh (opened : Int → Bool) : Process := idle (World.start (processFds opened))

theorem fresh_displays (inet : Inet) (opened : Int → Bool) : (fresh opened).Displays inet .empty := by
  refine ⟨⟨empty_faithful _, ?_, fun type n => ?_⟩, fun id w runs => by cases runs⟩
  · funext n
    exact (book_none_iff n).mpr
      (by simp [fresh, idle, World.start, Shared.initial, Net.empty, used, unused])
  · exact (by decide : (0 : Int) = min 0 intMax)

/-- The actions of a run from the start. -/
def actions (host : Host) (opened : Int → Bool) (run : List ProcessEvent) : List Directory.Action :=
  trace (step host) (action host) run (fresh opened)

/-- From any state of a run, a step does to the registry what its action says,
and nothing that a look-up sees of another entry changes. -/
theorem step_refines_directory (host : Host) (opened : Int → Bool)
    (run : List ProcessEvent) (s t : Process)
    (e : ProcessEvent) (reached : runAll (step host) run (fresh opened) = .ok s)
    (h : s.step host e = .ok t) :
    Refines host.inet (after Directory.next (actions host opened (run ++ [e])) .empty).book
      s.world.shared.net t.world.shared.net := by
  have displays := (directory_simulates host).run (fresh_displays host.inet opened) reached
  have more : actions host opened (run ++ [e]) = actions host opened run ++
      (s.action host e).toList := by
    rw [actions, trace_append _ reached]
    simp [actions, trace, h]
  rw [more, after_append]
  exact (step_advances displays h).registry

/-- Whoever took the steps, an entry is what the last action on its client made
of it, and a counter shows how often its call was reported. -/
theorem shows_last_actions (host : Host) (opened : Int → Bool) (run : List ProcessEvent) (s : Process)
    (reached : runAll (step host) run (fresh opened) = .ok s) :
    Faithful host.inet s.world.shared.net ∧
      (∀ n, s.world.shared.net.book n =
        ((actions host opened run).filterMap (Directory.Action.entry n)).getLast?.join) ∧
      ∀ type n, s.world.shared.gSuccessCall type n =
        min ((actions host opened run).count (.call type n) : Int) intMax := by
  have shows := ((directory_simulates host).run (fresh_displays host.inet opened) reached).1
  refine ⟨shows.faithful, fun n => ?_, fun type n => ?_⟩
  · have last := Directory.book_after (actions host opened run) n .empty
    rw [shows.book, ← actions, last]
    cases ((actions host opened run).filterMap (Directory.Action.entry n)).getLast? <;> rfl
  · have count := Directory.calls_after (actions host opened run) type n .empty
    rw [shows.calls type n, ← actions, count]
    simp [Directory.empty]

section Sample

/-- Client 1 is added, talks and is suspended. Thread 5 receives the logs. -/
def suspendedRun : List ProcessEvent :=
  [.line none "add 1 192.168.10.1".toList, .line none "add 2 192.168.10.2".toList,
    .line none "start rec".toList,
    .log 5 "client 1 doubleTalk ".toList, .log 5 "client 1 suspended ".toList]

def phoneHost : Host := .willing (fun n => n + 3) (fun n => some (n + 5)) fun _ => none

def afterSuspended : Except Fault Process :=
  runAll (step phoneHost) suspendedRun (fresh fun d => d ≤ 2)

theorem afterSuspended_defined : ∃ s, afterSuspended = .ok s := by
  have defined : afterSuspended.toOption.isSome = true := by decide +kernel
  cases reached : afterSuspended with
  | error f =>
    rw [reached] at defined
    cases defined
  | ok s => exact ⟨s, rfl⟩

theorem suspendedRun_actions : actions phoneHost (fun d => d ≤ 2) suspendedRun =
    [.add 1 "192.168.10.1".toList, .add 2 "192.168.10.2".toList, .call 0 1, .del 1] := by
  decide +kernel

theorem shows_last_suspended : ∃ s, afterSuspended = .ok s ∧ s.world.shared.net.book 1 = none ∧
    s.world.shared.net.book 2 = some "192.168.10.2".toList ∧ s.world.shared.gSuccessCall 0 1 = 1 := by
  obtain ⟨s, reached⟩ := afterSuspended_defined
  obtain ⟨-, book, calls⟩ := shows_last_actions phoneHost (fun d => d ≤ 2) suspendedRun s reached
  refine ⟨s, reached, ?_, ?_, ?_⟩
  · rw [book 1, suspendedRun_actions]
    decide
  · rw [book 2, suspendedRun_actions]
    decide
  · rw [calls 0 1, suspendedRun_actions]
    decide

def delSecondEvent : ProcessEvent := .line none "dl 2".toList

theorem step_refines_suspended : ∃ s t, afterSuspended = .ok s ∧
    s.step phoneHost delSecondEvent = .ok t ∧ t.world.shared.net.book 2 = none := by
  obtain ⟨s, reached⟩ := afterSuspended_defined
  have defined : (afterSuspended.bind (step phoneHost delSecondEvent)).toOption.isSome = true := by
    decide +kernel
  rw [reached] at defined
  cases h : s.step phoneHost delSecondEvent with
  | error f => simp [Except.bind, h, Except.toOption] at defined
  | ok t =>
    have refines := step_refines_directory phoneHost (fun d => d ≤ 2) suspendedRun s t _ reached h
    have acts : actions phoneHost (fun d => d ≤ 2) (suspendedRun ++ [delSecondEvent]) =
        [.add 1 "192.168.10.1".toList, .add 2 "192.168.10.2".toList, .call 0 1, .del 1, .del 2] := by
      decide +kernel
    refine ⟨s, t, reached, h, ?_⟩
    rw [refines.book, acts]
    decide

end Sample

end Process

end AutoTest
