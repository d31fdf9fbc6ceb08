import AutoTest.World

/-!
# What the commands and the logs do to the registry

`addClient`, `delClient` and a `suspended` log work through helpers with range
tests of their own. On an entry in range they come down to three operations.

* `Net.insert`: reserve a socket and fill the entry.
* `Net.remove`: empty the entry and close its socket, whatever it holds.
* `addClient_net`, `delClient_net`, `perform_syslogProcess`: the handlers and
  the logs perform them.
-/

namespace AutoTest

open CString Strtok Program

namespace Net

/-- The text written into an address buffer, in front of what stood there. -/
def withText (n : Client) (t : Text) (s : Net) : Net :=
  let new := cells t ++ none :: (s.gClientIpAddr n).drop (t.length + 1)
  { s with gClientIpAddr := Function.update s.gClientIpAddr n new }

def withFlag (n : Client) (flag : Int) (s : Net) : Net :=
  { s with gClientFlag := Function.update s.gClientFlag n flag }

def withSockAddr (n : Client) (addr : SockAddr) (s : Net) : Net :=
  { s with clientSockAddr := Function.update s.clientSockAddr n addr }

/-- The answer of `socket` is stored even when it is -1. -/
def reserve (answer : Nat → Int) (n : Client) (s : Net) : Net :=
  let (d, s) := s.socket answer n
  { s with gSockets := Function.update s.gSockets n d }

def insert (inet : Inet) (answer : Nat → Int) (n : Client) (ipAddr : Text) (s : Net) : Net :=
  if s.gClientFlag n = used then s
  else
    match inet.pton ipAddr with
    | none => s
    | some _ =>
      let addr : SockAddr := ⟨afInet, serverPort, (inet.aton ipAddr).getD 0⟩
      if (s.socket answer n).1 = failed then s.reserve answer n
      else (((s.reserve answer n).withSockAddr n addr).withFlag n used).withText n ipAddr

/-- `closeSocket` on an entry of the registry. -/
def release (n : Client) (s : Net) : Net :=
  if s.gSockets n = error then s
  else
    { s with
      fds := Function.update s.fds (s.gSockets n) none
      closed := s.closed ++ [(n, s.fds (s.gSockets n))] }

def remove (n : Client) (s : Net) : Net :=
  (((s.withFlag n unused).withText n []).release n).withSockAddr n .zero

/-- `socket` answers with a descriptor that was not open, or with -1. -/
theorem socket_cases (answer : Nat → Int) (n : Client) (s : Net) :
    (∃ d, d ≠ failed ∧ s.fds d = none ∧ s.socket answer n =
      (d, { s with
        socketCalls := s.socketCalls + 1
        fds := Function.update s.fds d (some (.client n)) })) ∨
    s.socket answer n = (failed, { s with socketCalls := s.socketCalls + 1 }) := by
  by_cases fresh : 0 ≤ answer s.socketCalls ∧ s.fds (answer s.socketCalls) = none
  · refine .inl ⟨answer s.socketCalls, ?_, fresh.2, by simp [socket, fresh]⟩
    simp only [failed]
    omega
  · exact .inr (by simp [socket, fresh])

/-- The entry of one client is the same in two registries. -/
structure SameEntry (n : Client) (s s' : Net) : Prop where
  flag : s'.gClientFlag n = s.gClientFlag n
  socket : s'.gSockets n = s.gSockets n
  text : s'.gClientIpAddr n = s.gClientIpAddr n
  addr : s'.clientSockAddr n = s.clientSockAddr n

theorem SameEntry.refl (n : Client) (s : Net) : SameEntry n s s := ⟨rfl, rfl, rfl, rfl⟩

theorem remove_other {m n : Client} (other : m ≠ n) (s : Net) : SameEntry m s (s.remove n) := by
  unfold remove release
  split <;> constructor <;> simp [withFlag, withText, withSockAddr, other]

theorem remove_self (n : Client) (s : Net) : (s.remove n).gClientFlag n = unused ∧
    cstring ((s.remove n).gClientIpAddr n) = [] ∧ (s.remove n).clientSockAddr n = .zero := by
  unfold remove release
  split <;> simp [withFlag, withText, withSockAddr, cells, cstring]

theorem remove_fds (n : Client) (s : Net) : (s.remove n).fds =
    if s.gSockets n = error then s.fds else Function.update s.fds (s.gSockets n) none := by
  by_cases empty : s.gSockets n = error <;>
    simp [remove, release, withFlag, withText, withSockAddr, empty]

/-! ## The helpers on an entry in range -/

section InRange

variable (n : Client) (s : Net)

@[simp] theorem getClientFlag_client : s.getClientFlag n = s.gClientFlag n := by
  simp [getClientFlag]

@[simp] theorem setClientFlag_client (flag : Int) :
    s.setClientFlag n flag = s.withFlag n flag := by
  simp [setClientFlag, withFlag]

@[simp] theorem setClientSockAddr_client (addr : SockAddr) :
    s.setClientSockAddr n addr = s.withSockAddr n addr := by
  simp [setClientSockAddr, withSockAddr]

@[simp] theorem delClientSockAddr_client : s.delClientSockAddr n = s.withSockAddr n .zero := by
  simp [delClientSockAddr]

@[simp] theorem closeSocket_client : s.closeSocket n = .ok (s.release n) := by
  unfold closeSocket release
  by_cases h : s.gSockets n = error <;> simp [h]

theorem setClientIpAddr_client {t : Text} (short : t.length < maxIpLenth) :
    s.setClientIpAddr n t = .ok (s.withText n t) := by
  simp [setClientIpAddr, withText, short]

@[simp] theorem setClientIpAddr_empty : s.setClientIpAddr n [] = .ok (s.withText n []) :=
  setClientIpAddr_client n s (by simp [maxIpLenth])

end InRange

theorem networkConfig_failed_iff (inet : Inet) (answer : Nat → Int) (n : Client) (ipAddr : Text)
    (s : Net) : (s.networkConfig inet answer n ipAddr).1 = .failed ↔
      inet.pton ipAddr = none ∨ s.gClientFlag n = used ∨ (s.socket answer n).1 = failed := by
  unfold networkConfig
  by_cases valid : inet.pton ipAddr = none
  · simp [isValidIp, valid]
  by_cases flag : s.gClientFlag n = used
  · simp [flag]
  have hvalid : (inet.pton ipAddr).isSome := Option.isSome_iff_ne_none.mpr valid
  by_cases sock : (s.socket answer n).1 = failed <;> simp [isValidIp, hvalid, valid, flag, sock]

theorem networkConfig_net (inet : Inet) (answer : Nat → Int) (n : Client) (ipAddr : Text)
    (s : Net) : (s.networkConfig inet answer n ipAddr).2 =
      if inet.pton ipAddr = none ∨ s.gClientFlag n = used then s
      else if (s.socket answer n).1 = failed then s.reserve answer n
      else (s.reserve answer n).withSockAddr n
        ⟨afInet, serverPort, (inet.aton ipAddr).getD 0⟩ := by
  unfold networkConfig
  by_cases valid : inet.pton ipAddr = none
  · simp [isValidIp, valid]
  by_cases flag : s.gClientFlag n = used
  · simp [flag]
  have hvalid : (inet.pton ipAddr).isSome := Option.isSome_iff_ne_none.mpr valid
  by_cases sock : (s.socket answer n).1 = failed <;>
    simp [isValidIp, hvalid, valid, flag, sock, reserve]

theorem networkConfig_outside {clientNum : Int} (outside : clientIndex clientNum = none)
    (inet : Inet) (answer : Nat → Int) (ipAddr : Text) (s : Net) :
    s.networkConfig inet answer clientNum ipAddr = (.failed, s) := by
  simp [networkConfig, outside]

/-- What `add` does to the registry. -/
def add (inet : Inet) (answer : Nat → Int) (clientNum : Int) (ipAddr : Text) (s : Net) : Net :=
  match clientIndex clientNum with
  | none => s
  | some n => s.insert inet answer n ipAddr

/-- What `del` does to the registry. -/
def del (clientNum : Int) (s : Net) : Net :=
  match clientIndex clientNum with
  | none => s
  | some n => if s.gClientFlag n = unused then s else s.remove n

end Net

/-! ## The handlers -/

section Handlers

variable (host : Host) (callee : Text → World → Except Fault World)

/-- A state that differs in the registry and in what was printed. -/
def World.withNet (w : World) (net : Net) (out : List Text) : World :=
  { w with shared := { w.shared with net := net, out := out } }

theorem addClient_net {w : World} {t ipAddr : Text} (cmdNum : Nat)
    (count : 2 ≤ w.params.gParamNum) (first : w.params.param 1 = .ok t)
    (second : w.params.param 2 = .ok ipAddr) :
    ∃ out, (addClient cmdNum).run (interp host callee) w =
      .ok ((), w.withNet (w.shared.net.add host.inet host.socket (atoi t) ipAddr) out) := by
  have enough : ¬ w.params.gParamNum < 2 := by omega
  simp only [addClient, Cmd.paramNum, Cmd.param, Cmd.lock, Cmd.unlock,
    Cmd.getClientFlag, Prog.op_bind,
    Prog.pure_bind', Prog.run, interp, sharedStep, reading, first, second, enough, ↓reduceIte]
  cases hindex : clientIndex (atoi t) with
  | none =>
    have flag : ¬ w.shared.net.getClientFlag (atoi t) = used := by
      simp [Net.getClientFlag, hindex, error, used]
    refine ⟨w.shared.out ++ [(cmdEntry cmdNum).example' ++ "\n".toList], ?_⟩
    simp [flag, Cmd.networkConfig, Cmd.printLine, Cmd.print, Prog.run, interp, sharedStep,
      Net.networkConfig_outside hindex, Net.add, hindex, World.withNet]
  | some n =>
    rw [clientIndex_some hindex]
    simp only [Net.getClientFlag_client, Net.add, clientIndex_cast, Net.insert]
    by_cases flag : w.shared.net.gClientFlag n = used
    · refine ⟨w.shared.out ++ ["client num exist! add failed\n".toList], ?_⟩
      simp [flag, Cmd.say, Cmd.print, Prog.run, interp, sharedStep, World.withNet]
    · have stat := Net.networkConfig_failed_iff host.inet host.socket n ipAddr w.shared.net
      have net := Net.networkConfig_net host.inet host.socket n ipAddr w.shared.net
      generalize hconfig : w.shared.net.networkConfig host.inet host.socket n ipAddr = config
        at stat net
      obtain ⟨answer, after⟩ := config
      simp only [flag, ↓reduceIte]
      cases valid : host.inet.pton ipAddr with
      | none =>
        simp only [valid, true_or, iff_true, ↓reduceIte] at stat net
        refine ⟨w.shared.out ++ [(cmdEntry cmdNum).example' ++ "\n".toList], ?_⟩
        simp [hconfig, stat, net, Cmd.networkConfig, Cmd.printLine, Cmd.print, Prog.run, interp,
          sharedStep, World.withNet]
      | some v =>
        have short : ipAddr.length < maxIpLenth := by
          have := host.inet.short ipAddr v valid
          simp only [maxIpLenth]
          omega
        simp only [valid, flag, reduceCtorEq, false_or, ↓reduceIte] at stat net
        by_cases sock : (w.shared.net.socket host.socket n).1 = failed
        · simp only [sock, iff_true, ↓reduceIte] at stat net
          refine ⟨w.shared.out ++ [(cmdEntry cmdNum).example' ++ "\n".toList], ?_⟩
          simp [hconfig, stat, net, sock, Cmd.networkConfig, Cmd.printLine, Cmd.print, Prog.run,
            interp, sharedStep, World.withNet]
        · simp only [sock, iff_false, ↓reduceIte] at stat net
          refine ⟨w.shared.out ++ ["add client OK!\n".toList], ?_⟩
          simp [hconfig, stat, net, sock, Cmd.networkConfig, Cmd.setClientFlag, Cmd.setClientIpAddr,
            Cmd.say, Cmd.print, Prog.run, interp, sharedStep, writing,
            Net.setClientIpAddr_client _ _ short, World.withNet]

theorem addClient_short {w : World} (cmdNum : Nat) (count : w.params.gParamNum < 2) :
    ∃ out, (addClient cmdNum).run (interp host callee) w =
      .ok ((), w.withNet w.shared.net out) := by
  have wrong : (addClient cmdNum).run (interp host callee) w =
      (wrongParameter cmdNum).run (interp host callee) w := by
    show (if w.params.gParamNum < 2 then _ else _ : Cmd Unit).run (interp host callee) w = _
    rw [if_pos count]
  rw [wrong]
  exact ⟨_, rfl⟩

theorem delClient_net {w : World} {t : Text} (cmdNum : Nat) (first : w.params.param 1 = .ok t) :
    ∃ out, (delClient cmdNum).run (interp host callee) w =
      .ok ((), w.withNet
        (if w.params.gParamNum < 1 then w.shared.net else w.shared.net.del (atoi t)) out) := by
  simp only [delClient, Cmd.paramNum, Cmd.param, Prog.op_bind, Prog.pure_bind', Prog.run, interp,
    reading, first]
  by_cases refused : w.params.gParamNum < 1 ∨ atoi t > maxClient ∨ atoi t < minClient
  · have kept : (if w.params.gParamNum < 1 then w.shared.net else w.shared.net.del (atoi t)) =
        w.shared.net := by
      rcases refused with few | far
      · simp [few]
      · have outside : clientIndex (atoi t) = none := by
          simp only [clientIndex_none, maxClient, minClient] at far ⊢
          omega
        simp [Net.del, outside]
    refine ⟨w.shared.out ++ ["wrong parameter!!\n".toList] ++
      [(cmdEntry cmdNum).example' ++ "\n".toList], ?_⟩
    simp [refused, kept, wrongParameter, Cmd.say, Cmd.printLine, Cmd.print, Prog.run, interp,
      sharedStep, World.withNet]
  · have enough : ¬ w.params.gParamNum < 1 := fun few => refused (.inl few)
    rw [if_neg refused, if_neg enough]
    by_cases flag : w.shared.net.getClientFlag (atoi t) = unused
    · have kept : w.shared.net.del (atoi t) = w.shared.net := by
        unfold Net.del Net.getClientFlag at *
        cases hindex : clientIndex (atoi t) with
        | none => rfl
        | some n => simp_all
      refine ⟨w.shared.out ++
        ["client ".toList ++ toText (atoi t) ++ " not configured!\n".toList], ?_⟩
      simp [flag, kept, Cmd.lock, Cmd.unlock, Cmd.getClientFlag, Cmd.print, Prog.run, interp,
        sharedStep, World.withNet]
    · cases hindex : clientIndex (atoi t) with
      | none => simp [Net.getClientFlag, hindex, error, unused] at flag
      | some n =>
        have hn := clientIndex_some hindex
        rw [hn, Net.getClientFlag_client] at flag
        refine ⟨w.shared.out, ?_⟩
        rw [hn]
        simp only [Cmd.lock, Cmd.unlock, Cmd.getClientFlag, Prog.op_bind, Prog.pure_bind', Prog.run,
          interp, sharedStep, Net.getClientFlag_client, flag, ↓reduceIte, Net.del, clientIndex_cast]
        simp [Net.remove, Cmd.setClientFlag, Cmd.setClientIpAddr, Cmd.closeSocket,
          Cmd.delClientSockAddr, Prog.run, interp, sharedStep, writing, World.withNet]

end Handlers

/-! ## Lines that change the registry -/

/-- A line that `cmd_proc` takes for an `add` or a `del`. -/
structure RegistryLine where
  line : Text
  argv : List Text
  cmdNum : Nat
  tokens : lineTokens line = some argv
  named : argv.head?.bind getCmdCode = some cmdNum
  func : (cmdEntry cmdNum).func = .addClient ∨ (cmdEntry cmdNum).func = .delClient

namespace RegistryLine

variable (l : RegistryLine)

def effect (host : Host) (net : Net) : Net :=
  if (cmdEntry l.cmdNum).func = .addClient then
    match l.argv with
    | _ :: t :: ipAddr :: _ => net.add host.inet host.socket (atoi t) ipAddr
    | _ => net
  else
    match l.argv with
    | _ :: t :: _ => net.del (atoi t)
    | _ => net

/-- `delClient` reads its argument before it looks at the count. -/
def Readable (p : Params) : Prop :=
  (cmdEntry l.cmdNum).func = .delClient → 2 ≤ l.argv.length ∨ (p.gCmdParam 1).isSome

variable (host : Host) (callee : Text → World → Except Fault World)

theorem dispatched (w : World) : ∃ p, w.params.load l.line = .ok p ∧
    Params.Loaded l.argv w.params p ∧
    perform host callee (cmdProc l.line) w =
      perform host callee ((cmdEntry l.cmdNum).func.run l.cmdNum) { w with params := p } := by
  cases first : l.argv.head? with
  | none => simpa [first] using l.named
  | some name =>
    have code : getCmdCode name = some l.cmdNum := by simpa [first] using l.named
    obtain ⟨p, hload, loaded, hrun⟩ := cmdProc_run host callee l.tokens first code w
    exact ⟨p, hload, loaded, by simp only [perform, hrun]⟩

theorem perform_line {w : World} (readable : l.Readable w.params) :
    ∃ p out, perform host callee (cmdProc l.line) w =
      .ok (World.withNet { w with params := p } (l.effect host w.shared.net) out) := by
  obtain ⟨p, hload, loaded, hrun⟩ := l.dispatched host callee w
  have hcount := loaded.count
  have hown := loaded.own
  rw [hrun]
  rcases l.func with hadd | hdel
  · simp only [effect, hadd, ↓reduceIte, Func.run, perform]
    rcases hargv : l.argv with _ | ⟨name, _ | ⟨t, _ | ⟨ipAddr, more⟩⟩⟩
    case cons.cons.cons =>
      have enough : 2 ≤ p.gParamNum := by
        simp [hargv] at hcount
        omega
      obtain ⟨out, hnet⟩ := addClient_net host callee (w := { w with params := p }) l.cmdNum enough
        (by simpa [hargv] using hown 1 (by simp [hargv]))
        (by simpa [hargv] using hown 2 (by simp [hargv]))
      exact ⟨p, out, by simp only [hnet]⟩
    all_goals
      have few : p.gParamNum < 2 := by
        simp [hargv] at hcount
        omega
      obtain ⟨out, hnet⟩ := addClient_short host callee (w := { w with params := p }) l.cmdNum few
      exact ⟨p, out, by simp only [hnet]⟩
  · have hadd : (cmdEntry l.cmdNum).func ≠ .addClient := by simp [hdel]
    obtain ⟨t, first⟩ : ∃ t, p.param 1 = .ok t := by
      rcases readable hdel with supplied | stale
      · exact ⟨_, hown 1 supplied⟩
      · by_cases supplied : 2 ≤ l.argv.length
        · exact ⟨_, hown 1 supplied⟩
        · obtain ⟨offset, hoffset⟩ := Option.isSome_iff_exists.mp stale
          rw [← loaded.stale 1 (by omega)] at hoffset
          exact ⟨stringAt p.tmp offset, by simp [Params.param, hoffset]⟩
    obtain ⟨out, hnet⟩ := delClient_net host callee (w := { w with params := p }) l.cmdNum first
    refine ⟨p, out, ?_⟩
    simp only [hdel, Func.run, perform, hnet, effect, reduceCtorEq, ↓reduceIte]
    rcases hargv : l.argv with _ | ⟨name, _ | ⟨t', more⟩⟩
    case cons.cons =>
      have enough : ¬ p.gParamNum < 1 := by
        simp [hargv] at hcount
        omega
      obtain rfl : t = t' := by
        have own := hown 1 (by simp [hargv])
        simpa [hargv, first] using own
      simp [enough]
    all_goals
      have few : p.gParamNum < 1 := by
        simp [hargv] at hcount
        omega
      simp [few]

/-- A `del` without an argument, before any line had one. -/
theorem perform_unset {w : World} (unreadable : ¬ l.Readable w.params) :
    perform host callee (cmdProc l.line) w = .error .unset := by
  obtain ⟨p, hload, loaded, hrun⟩ := l.dispatched host callee w
  simp only [Readable, Classical.not_imp, not_or] at unreadable
  obtain ⟨hdel, short, unset⟩ := unreadable
  have hnone : p.gCmdParam 1 = none := by
    rw [loaded.stale 1 (by omega)]
    simpa using unset
  have hread : interp host callee (.param 1) { w with params := p } = .error .unset := by
    simp only [interp, Params.param, hnone, reading]
  have hstop : (delClient l.cmdNum).run (interp host callee) { w with params := p } =
      .error .unset := Prog.run_op_error hread
  rw [hrun, hdel]
  simp only [Func.run, perform, hstop]

end RegistryLine

/-! ## The logs -/

namespace Shared

def countedCall (type : Nat) (n : Client) (s : Shared) : Shared :=
  let count := s.gSuccessCall type n
  let next := if int32 (count + 1) < 0 then count else int32 (count + 1)
  let row := Function.update (s.gSuccessCall type) n next
  { s with gSuccessCall := Function.update s.gSuccessCall type row }

/-- What an event does to the client it is attributed to. A `suspended` log
empties the entry without a look at its flag. -/
def applyEvent (issueId : LogStr) (n : Client) (s : Shared) : Shared :=
  match issueId with
  | .suspend => { s with net := s.net.remove n }
  | .talkBuild => s.countedCall 0 n
  | .talkConference => s.countedCall 1 n

end Shared

/-- The client a log with an event acts on; client zero fails the range test. -/
def loggedClient (log : Text) : Except Fault (Option Client) :=
  match getLogClientNum log with
  | .error f => .error f
  | .ok clientNum => .ok ((clientIndex clientNum).filter (0 < ·.val))

def logEffect (log : Text) (s : Shared) : Except Fault Shared :=
  match getLogMsgIssueId log with
  | none => .ok s
  | some issueId =>
    match loggedClient log with
    | .error f => .error f
    | .ok none => .ok s
    | .ok (some n) => .ok (s.applyEvent issueId n)

section Logs

variable (host : Host) (callee : Text → World → Except Fault World)

theorem countCall_run (w : World) (type : Nat) (known : type < maxCallType) (n : Client) :
    (countCall type n).run (interp host callee) w =
      .ok ((), { w with shared := w.shared.countedCall type n }) := by
  by_cases wraps : int32 (w.shared.gSuccessCall type n + 1) < 0 <;>
    simp [countCall, Cmd.getCountOfSuccessCall, Cmd.setCountOfSuccessCall, Prog.run, interp,
      sharedStep, reading, writing, Shared.getCountOfSuccessCall, Shared.setCountOfSuccessCall,
      Shared.countedCall, known, wraps]

theorem loggedClient_inside {log : Text} {n : Client} (names : getLogClientNum log = .ok n)
    (inside : 0 < n.val) : loggedClient log = .ok (some n) := by
  simp only [loggedClient, names, clientIndex_cast, Option.filter, inside, decide_true, ↓reduceIte]

theorem loggedClient_outside {log : Text} {clientNum : Int}
    (names : getLogClientNum log = .ok clientNum)
    (outside : ¬ (clientNum > minClient ∧ clientNum < maxClient)) :
    loggedClient log = .ok none := by
  simp only [loggedClient, names]
  cases hindex : clientIndex clientNum with
  | none => rfl
  | some n =>
    obtain rfl := clientIndex_some hindex
    have zero : n.val = 0 := by
      simp only [minClient, maxClient] at outside
      omega
    simp [Option.filter, zero]

theorem perform_syslogProcess (log : Text) (w : World) :
    perform host callee (syslogProcess log) w =
      match logEffect log w.shared with
      | .ok s => .ok { w with shared := s }
      | .error f => .error f := by
  unfold perform syslogProcess logEffect
  cases event : getLogMsgIssueId log with
  | none => rfl
  | some issueId =>
    cases names : getLogClientNum log with
    | error f =>
      have undefined : loggedClient log = .error f := by simp [loggedClient, names]
      simp only [undefined]
      rfl
    | ok clientNum =>
      by_cases range : clientNum > minClient ∧ clientNum < maxClient
      · obtain ⟨n, rfl⟩ : ∃ n : Client, clientNum = n := by
          simp only [minClient, maxClient] at range
          exact ⟨⟨clientNum.toNat, by omega⟩, by simp; omega⟩
        have inside : 0 < n.val := by
          simp only [minClient] at range
          omega
        simp only [loggedClient_inside names inside, range, and_self, ↓reduceIte]
        cases issueId with
        | suspend =>
          simp [Shared.applyEvent, Net.remove, Cmd.lock, Cmd.unlock, Cmd.setClientFlag,
            Cmd.setClientIpAddr, Cmd.closeSocket, Cmd.delClientSockAddr, Prog.run, interp, sharedStep,
            writing]
        | talkBuild => simp [Shared.applyEvent, countCall_run host callee w 0 (by decide) n]
        | talkConference => simp [Shared.applyEvent, countCall_run host callee w 1 (by decide) n]
      · simp only [loggedClient_outside names range, if_neg range]
        rfl

end Logs

end AutoTest
