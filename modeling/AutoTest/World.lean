import AutoTest.Syslog

/-!
# One command at a time

The state of the process and the meaning of every operation when nothing else
runs. The token array and its text buffer are a part of their own, since
every line rewrites them and no line clears them.

* `Params.load` is `getTokens` into `gCmdParam`: the offsets of a shorter line
  replace only the first entries, and all entries point into the new text.
* `Params.load_own`: the entries up to the count of a line are its tokens, and
  the others are those of earlier lines.
* `exec` runs a line, with the lines it passes on to `cmd_proc` nested in it.
-/

namespace AutoTest

open CString Strtok Program

/-! ## Tokens -/

structure Params where
  gParamNum : Int
  /-- offsets into `tmp`; an entry no line has set is `none` -/
  gCmdParam : Nat → Option Nat
  tmp : List Cell

/-- The tokens of a line, where formatting it is defined. -/
def lineTokens (line : Text) : Option (List Text) :=
  (snprintf maxScContent line).map fun t => (words cSpace t).take maxToken

namespace Params

def initial : Params := ⟨0, fun _ => none, []⟩

def load (line : Text) (p : Params) : Except Fault Params :=
  match snprintf maxScContent line with
  | none => .error .format
  | some t =>
    let (offsets, tmp) := splitWords cSpace maxToken (cells t) 0
    .ok ⟨(offsets.length : Int) - 1, fun i => offsets[i]?.or (p.gCmdParam i), tmp⟩

def param (i : Nat) (p : Params) : Except Fault Text :=
  match p.gCmdParam i with
  | none => .error .unset
  | some offset => .ok (stringAt p.tmp offset)

/-- `getTokens` into an array of the caller, which keeps offsets into `tmp`. -/
def getTokens (inStr delim : Text) (p : Params) : Except Fault (List Text × Params) :=
  match snprintf maxScContent inStr with
  | none => .error .format
  | some t =>
    let (offsets, tmp) := splitWords delim maxToken (cells t) 0
    .ok (offsets.map (stringAt tmp), { p with tmp := tmp })

/-- The token array after a line: its own tokens first, older entries after. -/
structure Loaded (argv : List Text) (old p : Params) : Prop where
  count : p.gParamNum = argv.length - 1
  own : ∀ i, (hi : i < argv.length) → p.param i = .ok argv[i]
  stale : ∀ i, argv.length ≤ i → p.gCmdParam i = old.gCmdParam i

theorem load_own {line : Text} {argv : List Text} (tokens : lineTokens line = some argv)
    (old : Params) : ∃ p, old.load line = .ok p ∧ Loaded argv old p := by
  unfold lineTokens at tokens
  cases ht : snprintf maxScContent line with
  | none => simp [ht] at tokens
  | some t =>
    have reads := splitWords_reads cSpace maxToken t
    obtain rfl : (words cSpace t).take maxToken = argv := by simpa [ht] using tokens
    simp only [load, ht]
    generalize splitWords cSpace maxToken (cells t) 0 = split at reads
    have hlen : split.1.length = ((words cSpace t).take maxToken).length := by
      simpa using congrArg List.length reads
    refine ⟨_, rfl, by simp only [hlen], fun i hi => ?_, fun i hi => ?_⟩
    · have inside : i < split.1.length := by omega
      have hread : stringAt split.2 split.1[i] = ((words cSpace t).take maxToken)[i] := by
        simp only [← reads, List.getElem_map]
      simp only [param, List.getElem?_eq_getElem inside, Option.some_or, hread]
    · have outside : split.1.length ≤ i := by omega
      simp only [List.getElem?_eq_none outside, Option.none_or]

theorem getTokens_own {inStr t : Text} (delim : Text) (ht : snprintf maxScContent inStr = some t)
    (p : Params) : ∃ tmp, p.getTokens inStr delim =
      .ok ((words delim t).take maxToken, { p with tmp := tmp }) := by
  refine ⟨(splitWords delim maxToken (cells t) 0).2, ?_⟩
  simp only [getTokens, ht, splitWords_reads]

end Params

/-! ## Shared state -/

/-- What the process asks of its host, by the number of such calls so far. -/
structure Host where
  inet : Inet
  socket : Nat → Int
  /-- the text of a file: one that exists can always be opened -/
  files : Text → Option Text
  pthreadCreate : Nat → Option Tid
  malloc : Nat → Bool
  openMsgFile : Nat → Int
  ftok : Nat → Int
  msgget : Nat → Int
  /-- whether a message to the queue of that id is queued -/
  msgsnd : Int → Nat → Bool
  fopenNote : Nat → Bool
  fwriteNote : Nat → Int
  getSysTime : Nat → Text
  rand : Nat → List Nat

/-- A host that refuses nothing, with the descriptors and handles given. -/
def Host.willing (socket : Nat → Int) (pthreadCreate : Nat → Option Tid)
    (files : Text → Option Text) : Host where
  inet := .strict
  socket := socket
  files := files
  pthreadCreate := pthreadCreate
  malloc := fun _ => true
  openMsgFile := fun _ => 3
  ftok := fun _ => 97
  msgget := fun _ => 0
  msgsnd := fun _ _ => true
  fopenNote := fun _ => true
  fwriteNote := fun _ => 1
  getSysTime := fun _ => []
  rand := fun _ => [0]

/-- All that is not a token. -/
structure Shared where
  net : Net
  scripts : Scripts
  thrCmdSendId : Tid
  thrRetReceiveId : Tid
  gSuccessCall : Nat → Client → Int
  gConfFileName : Text
  gMsgid : Int
  gSyslogPort : Int
  queue : List MsgQ
  /-- the threads that were created and not yet joined -/
  joinable : Tid → Bool
  calls : Nat
  out : List Text

namespace Shared

def initial (fds : Int → Option Holder) : Shared where
  net := .empty fds
  scripts := .empty
  thrCmdSendId := 0
  thrRetReceiveId := 0
  gSuccessCall := fun _ _ => 0
  gConfFileName := []
  gMsgid := 0
  gSyslogPort := error
  queue := []
  joinable := fun _ => false
  calls := 0
  out := []

def asked (s : Shared) : Shared := { s with calls := s.calls + 1 }

/-- A message goes to the queue `gMsgid`, and there is none if `msgget` failed. -/
def sends (host : Host) (s : Shared) : Bool := s.gMsgid ≠ failed && host.msgsnd s.gMsgid s.calls

def getCountOfSuccessCall (type : Nat) (clientNum : Int) (s : Shared) : Except Fault Int :=
  match clientIndex clientNum with
  | some n => if type < maxCallType then .ok (s.gSuccessCall type n) else .error .bounds
  | none => .error .bounds

/-- A negative value is not stored. -/
def setCountOfSuccessCall (type : Nat) (clientNum value : Int) (s : Shared) : Except Fault Shared :=
  if value < 0 then .ok s
  else
    match clientIndex clientNum with
    | none => .error .bounds
    | some n =>
      if type < maxCallType then
        let row := Function.update (s.gSuccessCall type) n value
        .ok { s with gSuccessCall := Function.update s.gSuccessCall type row }
      else .error .bounds

/-- A new handle is not zero and belongs to no thread still to be joined. -/
def pthreadCreate (host : Host) (s : Shared) : Option Tid × Shared :=
  match host.pthreadCreate s.calls with
  | none => (none, s.asked)
  | some id =>
    if id = 0 ∨ s.joinable id then (none, s.asked)
    else (some id, { s.asked with joinable := Function.update s.joinable id true })

def pthreadJoin (id : Tid) (s : Shared) : Except Fault Shared :=
  if s.joinable id then .ok { s with joinable := Function.update s.joinable id false }
  else .error .thread

end Shared

/-! ## Operations -/

/-- An answer that leaves the state alone, unless the access is undefined. -/
def reading {α σ : Type} (s : σ) : Except Fault α → Except Fault (α × σ)
  | .ok a => .ok (a, s)
  | .error f => .error f

/-- A change without an answer. -/
def writing {σ τ : Type} (put : τ → σ) : Except Fault τ → Except Fault (Unit × σ)
  | .ok t => .ok ((), put t)
  | .error f => .error f

def sharedStep (host : Host) : (o : Op) → Shared → Except Fault (o.Res × Shared)
  | .fault f, _ => .error f
  | .print t, s => .ok ((), { s with out := s.out ++ [t] })
  | .lock, s => .ok ((), s)
  | .unlock, s => .ok ((), s)
  | .getClientFlag n, s => .ok (s.net.getClientFlag n, s)
  | .setClientFlag n flag, s => .ok ((), { s with net := s.net.setClientFlag n flag })
  | .getClientIpAddr n, s =>
    match s.net.getClientIpAddr n with
    | some t => .ok (t, s)
    | none => .error .invalid
  | .setClientIpAddr n ipAddr, s =>
    writing (fun net => { s with net := net }) (s.net.setClientIpAddr n ipAddr)
  | .closeSocket n, s => writing (fun net => { s with net := net }) (s.net.closeSocket n)
  | .delClientSockAddr n, s => .ok ((), { s with net := s.net.delClientSockAddr n })
  | .networkConfig n ipAddr, s =>
    let (stat, net) := s.net.networkConfig host.inet host.socket n ipAddr
    .ok (stat, { s with net := net })
  | .changeClientAddr n ipAddr, s =>
    let (stat, net) := s.net.changeClientAddr host.inet host.socket n ipAddr
    .ok (stat, { s with net := net })
  | .getSendThreadID, s => .ok (s.thrCmdSendId, s)
  | .setSendThreadID id, s => .ok ((), { s with thrCmdSendId := id })
  | .getRecThreadID, s => .ok (s.thrRetReceiveId, s)
  | .setRecThreadID id, s => .ok ((), { s with thrRetReceiveId := id })
  | .getScriptThreadID slot, s => reading s (s.scripts.getScriptThreadID slot)
  | .setScriptThreadID slot id, s =>
    writing (fun scripts => { s with scripts := scripts }) (s.scripts.setScriptThreadID slot id)
  | .pthreadCreate _, s => .ok (s.pthreadCreate host)
  | .pthreadKill id, s => if s.joinable id then .ok ((), s) else .error .thread
  | .pthreadJoin id, s => writing (fun s => s) (s.pthreadJoin id)
  | .pthreadExit, s => .ok ((), s)
  | .signal, s => .ok ((), s)
  | .getCountOfSuccessCall type n, s => reading s (s.getCountOfSuccessCall type n)
  | .setCountOfSuccessCall type n value, s =>
    writing (fun s => s) (s.setCountOfSuccessCall type n value)
  | .getCountOfScriptRun slot, s => reading s (s.scripts.getCountOfScriptRun slot)
  | .setCountOfScriptRun slot value, s =>
    writing (fun scripts => { s with scripts := scripts }) (s.scripts.setCountOfScriptRun slot value)
  | .gScriptParamInit, s => .ok ((), { s with scripts := s.scripts.gScriptParamInit })
  | .getScriptName slot, s => reading s (s.scripts.getScriptName slot)
  | .setScriptName slot name, s =>
    writing (fun scripts => { s with scripts := scripts }) (s.scripts.setScriptName slot name)
  | .printConfFileName, s =>
    .ok ((), { s with out := s.out ++ ["autoConf:  ".toList ++ s.gConfFileName ++ "\n".toList] })
  | .setConfFileName name, s => .ok ((), { s with gConfFileName := name })
  | .openMsgFile, s => .ok (host.openMsgFile s.calls, s.asked)
  | .ftok, s => .ok (host.ftok s.calls, s.asked)
  | .msgget _, s => .ok (host.msgget s.calls, { s.asked with gMsgid := host.msgget s.calls })
  | .msgsnd m, s =>
    if s.sends host then .ok (0, { s.asked with queue := s.queue ++ [m] })
    else .ok (failed, s.asked)
  | .getSysLogPortNum, s => .ok (s.gSyslogPort, s)
  | .fopen name, s => .ok (host.files name, s)
  | .fclose, s => .ok ((), s)
  | .fopenNote, s => .ok (host.fopenNote s.calls, s.asked)
  | .fwriteNote _, s => .ok (host.fwriteNote s.calls, s.asked)
  | .getSysTime, s => .ok (host.getSysTime s.calls, s.asked)
  | .sleep _, s => .ok ((), s)
  | .usleep, s => .ok ((), s)
  | .rand, s => .ok (host.rand s.calls, s.asked)
  | .mallocScript slot, s =>
    if host.malloc s.calls then
      match s.scripts.mallocScript slot with
      | .ok scripts => .ok (true, { s.asked with scripts := scripts })
      | .error f => .error f
    else
      match s.scripts.freeScript slot with
      | .ok scripts => .ok (false, { s.asked with scripts := scripts })
      | .error f => .error f
  | .mallocTemp, s => .ok (host.malloc s.calls, s.asked)
  | .copyScript slot lines, s =>
    writing (fun scripts => { s with scripts := scripts }) (s.scripts.copyScript slot lines)
  | .scriptCmd slot index, s => reading s (s.scripts.scriptCmd slot index)
  | .freeScript slot, s =>
    writing (fun scripts => { s with scripts := scripts }) (s.scripts.freeScript slot)
  | _, _ => .error .invalid

structure World where
  params : Params
  shared : Shared

/-- `callee` is what a nested `cmd_proc` does. -/
def interp (host : Host) (callee : Text → World → Except Fault World) : Interp cmdSig Fault World
  | .setParams line, w => writing (fun params => { w with params := params }) (w.params.load line)
  | .paramNum, w => .ok (w.params.gParamNum, w)
  | .param i, w => reading w (w.params.param i)
  | .getTokens inStr delim, w =>
    match w.params.getTokens inStr delim with
    | .ok (tokens, params) => .ok (tokens, { w with params := params })
    | .error f => .error f
  | .call line, w => writing (fun w => w) (callee line w)
  | o, w =>
    match sharedStep host o w.shared with
    | .ok (r, s) => .ok (r, { w with shared := s })
    | .error f => .error f

/-- The state a function leaves. -/
def perform (host : Host) (callee : Text → World → Except Fault World) (p : Cmd Unit) (w : World) :
    Except Fault World :=
  match p.run (interp host callee) w with
  | .ok (_, w) => .ok w
  | .error f => .error f

/-- `cmd_proc`, nested at most `depth` deep. -/
def exec (host : Host) : Nat → Text → World → Except Fault World
  | 0, _, _ => .error .diverge
  | depth + 1, line, w => perform host (exec host depth) (cmdProc line) w

theorem cmdProc_run (host : Host) (callee : Text → World → Except Fault World) {line name : Text}
    {argv : List Text} {cmdNum : Nat} (tokens : lineTokens line = some argv)
    (first : argv.head? = some name) (code : getCmdCode name = some cmdNum) (w : World) :
    ∃ p, w.params.load line = .ok p ∧ Params.Loaded argv w.params p ∧
      (cmdProc line).run (interp host callee) w =
        ((cmdEntry cmdNum).func.run cmdNum).run (interp host callee) { w with params := p } := by
  obtain ⟨p, hload, loaded⟩ := Params.load_own tokens w.params
  have nonempty : 0 < argv.length := List.length_pos_iff.mpr (by rintro rfl; simp at first)
  have hname : p.param 0 = .ok name := by
    rw [loaded.own 0 nonempty]
    simpa [List.head?_eq_getElem?, List.getElem?_eq_getElem nonempty] using first
  refine ⟨p, hload, loaded, ?_⟩
  simp [cmdProc, Cmd.setParams, Cmd.param, Prog.run, interp, writing, reading, hload, hname, dispatch,
    code]

theorem load_undefined {line : Text} (h : lineTokens line = none) (p : Params) :
    p.load line = .error .format := by
  cases hcopy : CString.snprintf maxScContent line with
  | none => simp [Params.load, hcopy]
  | some t => simp [lineTokens, hcopy] at h

theorem cmdProc_undefined {line : Text} (h : lineTokens line = none) {host : Host}
    {callee : Text → World → Except Fault World} (w : World) :
    (cmdProc line).run (interp host callee) w = .error .format := by
  simp [cmdProc, Cmd.setParams, Prog.run, interp, writing, load_undefined h]

/-! ## Lines of one command -/

/-- A line that selects the handler `f`, with its arguments. -/
structure CmdLine (f : Func) where
  line : Text
  name : Text
  args : List Text
  cmdNum : Nat
  tokens : lineTokens line = some (name :: args)
  code : getCmdCode name = some cmdNum
  func : (cmdEntry cmdNum).func = f

/-- Every handler of such a line finds its tokens. -/
abbrev CmdLine.Found {f : Func} (l : CmdLine f) (post : Params → Prop) : Prop :=
  ∀ old p, Params.Loaded (l.name :: l.args) old p → post p

theorem CmdLine.found_count {f : Func} (l : CmdLine f) :
    l.Found fun p => p.gParamNum = l.args.length := by
  intro old p loaded
  simp [loaded.count]

theorem CmdLine.found_arg {f : Func} (l : CmdLine f) {i : Nat} {t : Text}
    (listed : l.args[i]? = some t) : l.Found fun p => p.param (i + 1) = .ok t := by
  intro old p loaded
  obtain ⟨inside, rfl⟩ := List.getElem?_eq_some_iff.mp listed
  exact loaded.own (i + 1) (by simpa using inside)

theorem CmdLine.leads {f : Func} (l : CmdLine f) {host : Host}
    {callee : Text → World → Except Fault World} {bad : Fault → Prop} {post : Unit → World → Prop}
    {w : World} (handler : ∀ p, Params.Loaded (l.name :: l.args) w.params p →
      (f.run l.cmdNum).Leads (interp host callee) bad post { w with params := p }) :
    (cmdProc l.line).Leads (interp host callee) bad post w := by
  obtain ⟨p, -, loaded, hrun⟩ := cmdProc_run host callee l.tokens rfl l.code w
  unfold Prog.Leads
  rw [hrun, l.func]
  exact handler p loaded

theorem param_leads {host : Host} {callee : Text → World → Except Fault World} {w : World}
    {i : Nat} {t : Text} {f : Text → Cmd Unit} {bad : Fault → Prop} {post : Unit → World → Prop}
    (read : w.params.param i = .ok t) (next : (f t).Leads (interp host callee) bad post w) :
    (Cmd.param i >>= f).Leads (interp host callee) bad post w := by
  apply Prog.Leads.now (r := t) (t := w)
  · simp only [interp, read, reading]
  · exact next

theorem perform_leads {host : Host} {callee : Text → World → Except Fault World} {p : Cmd Unit}
    {post : World → Prop} {w : World}
    (leads : p.Leads (interp host callee) (fun _ => False) (fun _ => post) w) :
    ∃ w', perform host callee p w = .ok w' ∧ post w' := by
  unfold perform
  cases hrun : p.run (interp host callee) w with
  | error e => exact (leads.error hrun).elim
  | ok r => exact ⟨r.2, rfl, leads.ok hrun⟩

theorem perform_error {host : Host} {callee : Text → World → Except Fault World} {p : Cmd Unit}
    {bad : Fault → Prop} {post : Unit → World → Prop} {w : World} {e : Fault}
    (leads : p.Leads (interp host callee) bad post w) (hrun : perform host callee p w = .error e) :
    bad e := by
  unfold perform at hrun
  split at hrun
  · cases hrun
  · rename_i failed
    cases hrun
    exact leads.error failed

theorem perform_fails {host : Host} {callee : Text → World → Except Fault World}
    {p : Cmd Unit} {w : World}
    {bad : Fault → Prop} (leads : p.Leads (interp host callee) bad (fun _ _ => False) w) :
    ∃ e, perform host callee p w = .error e ∧ bad e := by
  unfold perform
  cases hrun : p.run (interp host callee) w with
  | error e => exact ⟨e, rfl, leads.error hrun⟩
  | ok r => exact (leads.ok hrun).elim

theorem exec_leads {host : Host} {depth : Nat} {line : Text} {post : World → Prop} {w : World}
    (leads : (cmdProc line).Leads (interp host (exec host depth)) (fun _ => False)
      (fun _ => post) w) :
    ∃ w', exec host (depth + 1) line w = .ok w' ∧ post w' := perform_leads leads

end AutoTest
