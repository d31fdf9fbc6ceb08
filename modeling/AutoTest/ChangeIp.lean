import AutoTest.Process
import AutoTest.RegistryMap

/-!
# changeIp

The command looks for a client that is USED and then calls the function that
`add` uses, which refuses a client that is USED. So whatever was done before,
it changes nothing.

* `exec_kept`: what every line keeps in the registry.
* `changeClientIpAddr_net`: the command leaves the registry alone.
* `changeIp_iff`: it does what it is for when there is nothing to do.
-/

namespace AutoTest

open CString Strtok Program

/-! ## The registry under any line -/

section Frame

variable {host : Host} {callee : Text → World → Except Fault World}

theorem sharedStep_net {o : Op} {s s' : Shared} {r : o.Res} (h : o.group ≠ .registry)
    (hstep : sharedStep host o s = .ok (r, s')) : s'.net = s.net := by
  cases o with
  | setParams | paramNum | param | getTokens | call | fault => cases hstep
  | setClientFlag | setClientIpAddr | closeSocket | delClientSockAddr | networkConfig
  | changeClientAddr => exact absurd rfl h
  | getScriptThreadID | getCountOfSuccessCall | getCountOfScriptRun | getScriptName | scriptCmd =>
    obtain ⟨-, rfl⟩ := reading_ok hstep
    rfl
  | setCountOfScriptRun | setScriptName | setScriptThreadID | copyScript | freeScript =>
    obtain ⟨scripts, -, rfl⟩ := writing_ok hstep
    rfl
  | msgsnd m =>
    simp only [sharedStep] at hstep
    split at hstep <;> cases hstep <;> rfl
  | getClientIpAddr n =>
    simp only [sharedStep] at hstep
    split at hstep <;> cases hstep
    rfl
  | pthreadCreate =>
    have hcreate : s.pthreadCreate host = (r, s') := Except.ok.inj hstep
    rcases s.pthreadCreate_cases host with refused | ⟨id, -, -, created⟩
    · cases refused.symm.trans hcreate
      rfl
    · cases created.symm.trans hcreate
      rfl
  | pthreadJoin =>
    obtain ⟨joined, hjoin, rfl⟩ := writing_ok hstep
    obtain ⟨-, rfl⟩ := Shared.pthreadJoin_ok hjoin
    rfl
  | pthreadKill =>
    simp only [sharedStep] at hstep
    split at hstep <;> cases hstep
    rfl
  | setCountOfSuccessCall type n value =>
    obtain ⟨counted, hcount, rfl⟩ := writing_ok hstep
    unfold Shared.setCountOfSuccessCall at hcount
    split at hcount
    · cases hcount
      rfl
    · split at hcount
      · cases hcount
      · split at hcount <;> cases hcount
        rfl
  | mallocScript =>
    simp only [sharedStep] at hstep
    split at hstep <;> split at hstep <;> cases hstep <;> rfl
  | _ =>
    cases hstep
    rfl

theorem interp_net {o : Op} {w v : World} {r : o.Res} (write : o.group ≠ .registry)
    (nested : o.group ≠ .nested) (hstep : interp host callee o w = .ok (r, v)) :
    v.shared.net = w.shared.net := by
  cases o with
  | call line => exact absurd rfl nested
  | setParams line =>
    obtain ⟨params, -, rfl⟩ := writing_ok hstep
    rfl
  | paramNum =>
    cases hstep
    rfl
  | param i =>
    obtain ⟨-, rfl⟩ := reading_ok hstep
    rfl
  | getTokens inStr delim =>
    simp only [interp] at hstep
    split at hstep <;> cases hstep
    rfl
  | _ =>
    simp only [interp] at hstep
    split at hstep
    · rename_i hshared
      cases hstep
      exact sharedStep_net write hshared
    · cases hstep

end Frame

/-- What commands keep in the registry. -/
structure Kept (inet : Inet) (net : Net) : Prop where
  registered : Registered net
  faithful : Faithful inet net

theorem empty_kept (inet : Inet) (opened : Int → Bool) : Kept inet (.empty (processFds opened)) :=
  ⟨empty_registered opened, empty_faithful _⟩

section Kept

variable {host : Host} {callee : Text → World → Except Fault World} {w : World}

theorem Kept.add (h : Kept host.inet w.shared.net) (clientNum : Int) (ipAddr : Text) :
    Kept host.inet (w.shared.net.add host.inet host.socket clientNum ipAddr) :=
  ⟨h.registered.add .., (add_refines h.faithful host.socket clientNum ipAddr).faithful⟩

theorem Kept.del (h : Kept host.inet w.shared.net) (clientNum : Int) :
    Kept host.inet (w.shared.net.del clientNum) :=
  ⟨h.registered.del _, (del_refines h.faithful clientNum).faithful⟩

theorem paramNum_of_run {α : Type} {f : Int → Cmd α} {x : α × World}
    (hrun : (Cmd.paramNum >>= f).run (interp host callee) w = .ok x) :
    (f w.params.gParamNum).run (interp host callee) w = .ok x := hrun

theorem param_of_run {i : Nat} {α : Type} {f : Text → Cmd α} {x : α × World}
    (hrun : (Cmd.param i >>= f).run (interp host callee) w = .ok x) :
    ∃ t, w.params.param i = .ok t ∧ (f t).run (interp host callee) w = .ok x := by
  obtain ⟨t, v, hread, hrest⟩ := Prog.run_op_inv hrun
  obtain ⟨hparam, rfl⟩ := reading_ok hread
  exact ⟨t, hparam, hrest⟩

variable {x : Unit × World}

theorem addClient_kept (h : Kept host.inet w.shared.net) {cmdNum : Nat}
    (hrun : (addClient cmdNum).run (interp host callee) w = .ok x) :
    Kept host.inet x.2.shared.net := by
  by_cases short : w.params.gParamNum < 2
  · obtain ⟨out, hnet⟩ := addClient_short host callee cmdNum short
    cases hnet.symm.trans hrun
    exact h
  · have reads := paramNum_of_run hrun
    rw [if_neg short] at reads
    obtain ⟨t, first, reads⟩ := param_of_run reads
    obtain ⟨ipAddr, second, -⟩ := param_of_run reads
    obtain ⟨out, hnet⟩ := addClient_net host callee cmdNum (by omega) first second
    cases hnet.symm.trans hrun
    exact h.add _ _

theorem delClient_kept (h : Kept host.inet w.shared.net) {cmdNum : Nat}
    (hrun : (delClient cmdNum).run (interp host callee) w = .ok x) :
    Kept host.inet x.2.shared.net := by
  obtain ⟨t, first, -⟩ := param_of_run hrun
  obtain ⟨out, hnet⟩ := delClient_net host callee cmdNum first
  cases hnet.symm.trans hrun
  by_cases few : w.params.gParamNum < 1
  · simpa [World.withNet, few] using h
  · simpa [World.withNet, few] using h.del (atoi t)

/-! ## The command -/

/-- A client that is USED is refused by the function shared with `add`, any
other by the command itself. -/
theorem changeClientIpAddr_net (flags : ∀ n, w.shared.net.gClientFlag n = used ∨
      w.shared.net.gClientFlag n = unused) {t ipAddr : Text} (cmdNum : Nat)
    (count : 2 ≤ w.params.gParamNum) (first : w.params.param 1 = .ok t)
    (second : w.params.param 2 = .ok ipAddr) :
    ∃ out, (changeClientIpAddr cmdNum).run (interp host callee) w =
      .ok ((), w.withNet w.shared.net out) := by
  have enough : ¬ w.params.gParamNum < 2 := by omega
  simp only [changeClientIpAddr, Cmd.paramNum, Cmd.param, Cmd.lock, Cmd.unlock, Cmd.getClientFlag,
    Prog.op_bind, Prog.pure_bind', Prog.run, interp, sharedStep, reading, first, second, enough,
    ↓reduceIte]
  by_cases flag : w.shared.net.getClientFlag (atoi t) = unused
  · refine ⟨w.shared.out ++ ["client num no exist! add client!\n".toList], ?_⟩
    simp [flag, Cmd.say, Cmd.print, Prog.run, interp, sharedStep, World.withNet]
  · have refused : w.shared.net.changeClientAddr host.inet host.socket (atoi t) ipAddr =
        (.failed, w.shared.net) := by
      cases hindex : clientIndex (atoi t) with
      | none => simp [Net.changeClientAddr, Net.networkConfig_outside hindex]
      | some n =>
        obtain hn := clientIndex_some hindex
        rw [hn, Net.getClientFlag_client] at flag
        have stat := (Net.networkConfig_failed_iff host.inet host.socket n ipAddr w.shared.net).mpr
          (.inr (.inl ((flags n).resolve_right flag)))
        have net := Net.networkConfig_net host.inet host.socket n ipAddr w.shared.net
        rw [if_pos (.inr ((flags n).resolve_right flag))] at net
        generalize hconfig : w.shared.net.networkConfig host.inet host.socket n ipAddr = config
          at stat net
        obtain ⟨answer, after⟩ := config
        simp only at stat net
        simp [Net.changeClientAddr, hn, hconfig, stat, net]
    refine ⟨w.shared.out ++ ["client edit failed!\n".toList], ?_⟩
    simp [flag, refused, Cmd.changeClientAddr, Cmd.say, Cmd.print, Prog.run, interp, sharedStep,
      World.withNet]

theorem changeClientIpAddr_short (cmdNum : Nat) (count : w.params.gParamNum < 2) :
    ∃ out, (changeClientIpAddr cmdNum).run (interp host callee) w =
      .ok ((), w.withNet w.shared.net out) := by
  have wrong : (changeClientIpAddr cmdNum).run (interp host callee) w =
      (wrongParameter cmdNum).run (interp host callee) w := by
    show (if w.params.gParamNum < 2 then _ else _ : Cmd Unit).run (interp host callee) w = _
    rw [if_pos count]
  rw [wrong]
  exact ⟨_, rfl⟩

theorem changeClientIpAddr_kept (h : Kept host.inet w.shared.net) {cmdNum : Nat}
    (hrun : (changeClientIpAddr cmdNum).run (interp host callee) w = .ok x) :
    Kept host.inet x.2.shared.net := by
  by_cases short : w.params.gParamNum < 2
  · obtain ⟨out, hnet⟩ := @changeClientIpAddr_short host callee w cmdNum short
    cases hnet.symm.trans hrun
    exact h
  · have reads := paramNum_of_run hrun
    rw [if_neg short] at reads
    obtain ⟨t, first, reads⟩ := param_of_run reads
    obtain ⟨ipAddr, second, -⟩ := param_of_run reads
    obtain ⟨out, hnet⟩ := @changeClientIpAddr_net host callee w h.faithful.flags t ipAddr cmdNum
      (by omega) first second
    cases hnet.symm.trans hrun
    exact h

/-- A handler that does not write to the registry, given what the lines it
passes on keep. -/
theorem touches_kept {p : Cmd Unit} {groups : List Group} (touches : p.Touches groups)
    (aside : .registry ∉ groups)
    (nested : ∀ line v v', callee line v = .ok v' → Kept host.inet v.shared.net →
      Kept host.inet v'.shared.net)
    (h : Kept host.inet w.shared.net) (hrun : p.run (interp host callee) w = .ok x) :
    Kept host.inet x.2.shared.net := by
  refine touches.run_rel (R := fun v v' => Kept host.inet v.shared.net → Kept host.inet v'.shared.net)
    ?_ ?_ ?_ hrun h
  · intro v kept
    exact kept
  · intro a b c first second kept
    exact second (first kept)
  · intro o v r v' listed hstep kept
    by_cases passes : o.group = .nested
    · obtain ⟨line, rfl⟩ := Op.call_of_group passes
      obtain ⟨u, hcall, rfl⟩ := writing_ok hstep
      exact nested line v _ hcall kept
    · have write : o.group ≠ .registry := fun same => aside (same ▸ listed)
      exact (interp_net write passes hstep).symm ▸ kept

theorem dispatch_kept (nested : ∀ line v v', callee line v = .ok v' → Kept host.inet v.shared.net →
      Kept host.inet v'.shared.net) {name : Text} (h : Kept host.inet w.shared.net)
    (hrun : (dispatch name).run (interp host callee) w = .ok x) : Kept host.inet x.2.shared.net := by
  unfold dispatch at hrun
  cases code : getCmdCode name with
  | none =>
    rw [code] at hrun
    exact touches_kept (@say_touches [] _) (by decide) nested h hrun
  | some cmdNum =>
    rw [code] at hrun
    have touches := (cmdEntry cmdNum).func.run_touches cmdNum
    dsimp only at hrun
    generalize (cmdEntry cmdNum).func = func at hrun touches
    cases func with
    | addClient => exact addClient_kept h hrun
    | delClient => exact delClient_kept h hrun
    | changeClientIpAddr => exact changeClientIpAddr_kept h hrun
    | _ => exact touches_kept touches (by decide) nested h hrun

/-- A line keeps it, with all the lines it passes on. -/
theorem exec_kept {depth : Nat} {line : Text} {v : World} (h : Kept host.inet w.shared.net)
    (hrun : exec host depth line w = .ok v) : Kept host.inet v.shared.net := by
  induction depth generalizing line w v with
  | zero => cases hrun
  | succ depth ih =>
    unfold exec perform at hrun
    cases hproc : (cmdProc line).run (interp host (exec host depth)) w with
    | error e => simp [hproc] at hrun
    | ok x =>
      obtain rfl : x.2 = v := by simpa [hproc] using hrun
      obtain ⟨_, mid, hset, hrest⟩ := Prog.run_op_inv hproc
      obtain ⟨params, -, rfl⟩ := writing_ok hset
      obtain ⟨name, -, hdispatch⟩ := param_of_run hrest
      have nested (l : Text) (u u' : World) (hcall : exec host depth l u = .ok u')
          (kept : Kept host.inet u.shared.net) : Kept host.inet u'.shared.net := ih kept hcall
      exact dispatch_kept (w := ⟨params, w.shared⟩) nested h hdispatch

end Kept

/-! ## What it is for -/

/-- A line that `cmd_proc` takes for a `changeIp` with its two arguments. -/
structure ChangeLine where
  line : Text
  name : Text
  number : Text
  ipAddr : Text
  more : List Text
  tokens : lineTokens line = some (name :: number :: ipAddr :: more)
  named : commandFunc name = some .changeClientIpAddr

/-- The client has this address and one open socket, and the others are as before. -/
structure Moved (inet : Inet) (n : Client) (ipAddr : Text) (s s' : Net) : Prop where
  flag : s'.gClientFlag n = used
  text : s'.getClientIpAddr n = some ipAddr
  addr : ∃ v, inet.pton ipAddr = some v ∧ s'.clientSockAddr n = ⟨afInet, serverPort, v⟩
  socket : ∃! d, s'.fds d = some (.client n)
  others : ∀ m, m ≠ n → Net.SameEntry m s s' ∧
    ∀ d, s'.fds d = some (.client m) ↔ s.fds d = some (.client m)

/-- What `changeIp` is for. -/
def Changes (inet : Inet) (clientNum : Int) (ipAddr : Text) (s s' : Net) : Prop :=
  (∀ n, clientIndex clientNum = some n → s.gClientFlag n = used → (inet.pton ipAddr).isSome →
    Moved inet n ipAddr s s') ∧
  ((∀ n, clientIndex clientNum = some n → s.gClientFlag n = unused ∨ inet.pton ipAddr = none) →
    s' = s)

/-- Nothing is to be done: the client already has the address, and no
descriptor 0 is left of a time before its last removal. -/
def Already (inet : Inet) (clientNum : Int) (ipAddr : Text) (s : Net) : Prop :=
  ∀ n, clientIndex clientNum = some n → s.gClientFlag n = used → (inet.pton ipAddr).isSome →
    s.getClientIpAddr n = some ipAddr ∧ (s.fds 0 = some (.client n) → s.gSockets n = 0)

theorem ChangeLine.exec_net (l : ChangeLine) {host : Host}
    {callee : Text → World → Except Fault World} {w : World} (kept : Kept host.inet w.shared.net) :
    ∃ w', perform host callee (cmdProc l.line) w = .ok w' ∧ w'.shared.net = w.shared.net := by
  obtain ⟨cmdNum, code, func⟩ := Option.map_eq_some_iff.mp l.named
  obtain ⟨p, -, loaded, hrun⟩ := cmdProc_run host callee l.tokens rfl code w
  have count : 2 ≤ p.gParamNum := by
    have := loaded.count
    simp only [List.length_cons] at this
    omega
  obtain ⟨out, hnet⟩ := @changeClientIpAddr_net host callee ⟨p, w.shared⟩ kept.faithful.flags l.number
    l.ipAddr cmdNum count (loaded.own 1 (by simp)) (loaded.own 2 (by simp))
  rw [func] at hrun
  refine ⟨World.withNet ⟨p, w.shared⟩ w.shared.net out, ?_, rfl⟩
  simp only [perform, hrun, Func.run, hnet]

/-- Leaving everything as it is is right when there is nothing to do. -/
theorem changes_same_iff {inet : Inet} {s : Net} (kept : Kept inet s) (clientNum : Int)
    (ipAddr : Text) : Changes inet clientNum ipAddr s s ↔ Already inet clientNum ipAddr s := by
  constructor
  · rintro ⟨moves, -⟩ n hn flag valid
    have moved := moves n hn flag valid
    refine ⟨moved.text, ?_⟩
    intro zero
    obtain ⟨d, -, only⟩ := moved.socket
    exact (only _ (kept.registered.opened n flag)).trans (only 0 zero).symm
  · intro already
    refine ⟨fun n hn flag valid => ?_, fun _ => rfl⟩
    obtain ⟨text, zero⟩ := already n hn flag valid
    have held : s.book n = some ipAddr := by
      have read : cstring (s.gClientIpAddr n) = ipAddr := by simpa [Net.getClientIpAddr] using text
      simp [Net.book, flag, read]
    have opened := kept.registered.opened n flag
    refine ⟨flag, text, kept.faithful.holds n ipAddr held, ⟨s.gSockets n, opened, fun d hd => ?_⟩,
      fun m _ => ⟨.refl m s, fun d => Iff.rfl⟩⟩
    by_cases hzero : d = error
    · subst hzero
      exact (zero hd).symm
    · exact (kept.registered.owner d n hzero hd).2.symm

/-- After any lines, `changeIp` does what it is for exactly when the client
has the address already. -/
theorem changeIp_iff (host : Host) (depth nested : Nat) (opened : Int → Bool) (lines : List Text)
    {w : World} (reached : runAll (exec host depth) lines
      ⟨.initial, .initial (processFds opened)⟩ = .ok w) (l : ChangeLine) :
    (∃ w', exec host (nested + 1) l.line w = .ok w' ∧
        Changes host.inet (atoi l.number) l.ipAddr w.shared.net w'.shared.net) ↔
      Already host.inet (atoi l.number) l.ipAddr w.shared.net := by
  have start : Kept host.inet (Shared.initial (processFds opened)).net := empty_kept host.inet opened
  have kept : Kept host.inet w.shared.net :=
    Along.invariant (C := fun _ _ => True) (fun w : World => Kept host.inet w.shared.net)
      (fun _ _ _ h _ hrun => exec_kept h hrun) start
        (along_of_forall (fun _ _ _ => trivial) _) reached
  obtain ⟨w', hrun, same⟩ := @ChangeLine.exec_net l host (exec host nested) w kept
  rw [← changes_same_iff kept]
  constructor
  · rintro ⟨v, hv, changes⟩
    obtain rfl : w' = v := Except.ok.inj (hrun.symm.trans hv)
    exact same ▸ changes
  · intro changes
    exact ⟨w', hrun, same ▸ changes⟩

def changeFirst : ChangeLine where
  line := "changeIp 1 192.168.10.2".toList
  name := "changeIp".toList
  number := "1".toList
  ipAddr := "192.168.10.2".toList
  more := []
  tokens := by decide +kernel
  named := by decide

/-- A host whose `socket` calls answer 3, 4, 5 and so on. -/
def socketHost : Host := .willing (fun n => n + 3) (fun _ => none) fun _ => none

def oneClient : List Text := ["add 1 192.168.10.1".toList]

def afterOneClient : Except Fault World :=
  runAll (exec socketHost 1) oneClient ⟨.initial, .initial (processFds fun d => d ≤ 2)⟩

theorem changeIp_oneClient : ∃ w, afterOneClient = .ok w ∧
    ((∃ w', exec socketHost 1 changeFirst.line w = .ok w' ∧
        Changes .strict 1 changeFirst.ipAddr w.shared.net w'.shared.net) ↔
      Already .strict 1 changeFirst.ipAddr w.shared.net) := by
  have defined : afterOneClient.toOption.isSome = true := by decide +kernel
  cases reached : afterOneClient with
  | error f =>
    rw [reached] at defined
    cases defined
  | ok w => exact ⟨w, rfl, changeIp_iff socketHost 1 0 _ oneClient reached changeFirst⟩

/-- A USED client and another valid address. -/
theorem changeFirst_refused : ¬ ∀ w w', afterOneClient = .ok w →
    exec socketHost 1 changeFirst.line w = .ok w' →
      Changes .strict 1 changeFirst.ipAddr w.shared.net w'.shared.net := by
  intro changes
  have found : ((afterOneClient.bind fun w =>
      (exec socketHost 1 changeFirst.line w).map fun w' => (w, w')).toOption.map fun p =>
        (p.1.shared.net.gClientFlag 1, p.2.shared.net.getClientIpAddr 1)) =
      some (used, some "192.168.10.1".toList) := by
    decide +kernel
  cases reached : afterOneClient with
  | error f => simp [reached, Except.bind, Except.toOption] at found
  | ok w =>
    cases hrun : exec socketHost 1 changeFirst.line w with
    | error f => simp [reached, hrun, Except.bind, Except.map, Except.toOption] at found
    | ok w' =>
      simp only [reached, hrun, Except.bind, Except.map, Except.toOption, Option.map_some,
        Option.some.injEq, Prod.mk.injEq] at found
      have valid : (Inet.strict.pton changeFirst.ipAddr).isSome := by decide +kernel
      have moved := (changes w w' reached hrun).1 1 rfl found.1 valid
      have other := found.2.symm.trans moved.text
      exact absurd other (by decide)

end AutoTest
