import AutoTest.KeyMap
import AutoTest.Program
import AutoTest.Slots

/-!
# The operations of the program

Every function of `at_cmdProc.c` and `autoTest.c` is a tree over these
operations: the calls into the other source files, the accesses to shared
variables and the system calls. A text passed to `printf` as its format is
formatted when the tree is built, so an ill-formed one ends in `fault`.
-/

namespace AutoTest

open CString Program

def maxScContent : Nat := 256
def maxCmdLen : Nat := 256
def maxToken : Nat := 15
def maxCmdCode : Nat := 15
def maxActLenth : Nat := 5
def maxSharedLenth : Nat := 60
def maxTmpLenth : Nat := 60
def maxScriptThread : Int := 10
def maxCallType : Nat := 2

def cSpace : Text := " ".toList
def cComma : Text := ",".toList
def paramTest : Text := "test".toList
def paramRec : Text := "rec".toList
def paramSc : Text := "script".toList
def paramAll : Text := "all".toList
def strClient : Text := "client".toList
def strSyslogPort : Text := "syslogPort".toList

/-- The start routines passed to `pthread_create`. -/
inductive Routine where
  | cmdSend
  | retReceive
  | scriptCmdProcess
  deriving DecidableEq, Repr

inductive Op where
  /-- `gParamNum = getTokens(line, " ", gCmdParam)` -/
  | setParams (line : Text)
  | paramNum
  /-- the string at `gCmdParam[i]` -/
  | param (i : Nat)
  /-- `getTokens` into an array of the caller, through the same static buffer -/
  | getTokens (inStr delim : Text)
  /-- `cmd_proc(line)` from inside a handler or a script -/
  | call (line : Text)
  | fault (f : Fault)
  | print (t : Text)
  | lock
  | unlock
  | getClientFlag (clientNum : Int)
  | setClientFlag (clientNum flag : Int)
  | getClientIpAddr (clientNum : Int)
  | setClientIpAddr (clientNum : Int) (ipAddr : Text)
  | closeSocket (clientNum : Int)
  | delClientSockAddr (clientNum : Int)
  | networkConfig (cNum : Int) (ipAddr : Text)
  | changeClientAddr (cNum : Int) (ipAddr : Text)
  | getSendThreadID
  | setSendThreadID (id : Tid)
  | getRecThreadID
  | setRecThreadID (id : Tid)
  | getScriptThreadID (scriptNum : Int)
  | setScriptThreadID (scriptNum : Int) (id : Tid)
  /-- the new handle, unless the result is not zero -/
  | pthreadCreate (routine : Routine)
  /-- `pthread_kill(id, SIGQUIT)` -/
  | pthreadKill (id : Tid)
  | pthreadJoin (id : Tid)
  | pthreadExit
  | signal
  | getCountOfSuccessCall (type : Nat) (clientNum : Int)
  | setCountOfSuccessCall (type : Nat) (clientNum value : Int)
  | getCountOfScriptRun (scriptNum : Int)
  | setCountOfScriptRun (scriptNum value : Int)
  | gScriptParamInit
  | getScriptName (scriptNum : Int)
  | setScriptName (scriptNum : Int) (name : Text)
  /-- `printf("autoConf:  %s\n", gConfFileName)` -/
  | printConfFileName
  | setConfFileName (name : Text)
  /-- `open(MSG_FILE, O_CREAT | O_RDWR, 0)` and the `close` of the result -/
  | openMsgFile
  | ftok
  /-- `gMsgid = msgget(key, IPC_CREAT | 0666)` -/
  | msgget (key : Int)
  /-- `msgsnd(gMsgid, &m, sizeof(msgQ_t), 0)` -/
  | msgsnd (m : MsgQ)
  | getSysLogPortNum
  /-- the contents of a file opened for reading -/
  | fopen (name : Text)
  | fclose
  /-- whether the note file could be opened for appending -/
  | fopenNote
  | fwriteNote (t : Text)
  | getSysTime
  | sleep (seconds : Int)
  | usleep
  /-- the values of the next calls of `rand` -/
  | rand
  /-- `gScriptParam[slot] = malloc(..)` and whether it succeeded -/
  | mallocScript (slot : Int)
  /-- `temp = malloc(..)` of `cpScriptContentToArray` and whether it succeeded -/
  | mallocTemp
  | copyScript (slot : Int) (lines : List Text)
  /-- the string at `gScriptParam[slot]->scriptCmd[index]` -/
  | scriptCmd (slot : Int) (index : Nat)
  | freeScript (slot : Int)

abbrev Op.Res : Op → Type
  | .setParams _ => Unit
  | .paramNum => Int
  | .param _ => Text
  | .getTokens _ _ => List Text
  | .call _ => Unit
  | .fault _ => Empty
  | .print _ => Unit
  | .lock => Unit
  | .unlock => Unit
  | .getClientFlag _ => Int
  | .setClientFlag _ _ => Unit
  | .getClientIpAddr _ => Text
  | .setClientIpAddr _ _ => Unit
  | .closeSocket _ => Unit
  | .delClientSockAddr _ => Unit
  | .networkConfig _ _ => AtStat
  | .changeClientAddr _ _ => AtStat
  | .getSendThreadID => Tid
  | .setSendThreadID _ => Unit
  | .getRecThreadID => Tid
  | .setRecThreadID _ => Unit
  | .getScriptThreadID _ => Tid
  | .setScriptThreadID _ _ => Unit
  | .pthreadCreate _ => Option Tid
  | .pthreadKill _ => Unit
  | .pthreadJoin _ => Unit
  | .pthreadExit => Unit
  | .signal => Unit
  | .getCountOfSuccessCall _ _ => Int
  | .setCountOfSuccessCall _ _ _ => Unit
  | .getCountOfScriptRun _ => Int
  | .setCountOfScriptRun _ _ => Unit
  | .gScriptParamInit => Unit
  | .getScriptName _ => Text
  | .setScriptName _ _ => Unit
  | .printConfFileName => Unit
  | .setConfFileName _ => Unit
  | .openMsgFile => Int
  | .ftok => Int
  | .msgget _ => Int
  | .msgsnd _ => Int
  | .getSysLogPortNum => Int
  | .fopen _ => Option Text
  | .fclose => Unit
  | .fopenNote => Bool
  | .fwriteNote _ => Int
  | .getSysTime => Text
  | .sleep _ => Unit
  | .usleep => Unit
  | .rand => List Nat
  | .mallocScript _ => Bool
  | .mallocTemp => Bool
  | .copyScript _ _ => Unit
  | .scriptCmd _ _ => Text
  | .freeScript _ => Unit

abbrev cmdSig : Signature := ⟨Op, Op.Res⟩

abbrev Cmd := Prog cmdSig

namespace Cmd

def setParams (line : Text) : Cmd Unit := .op (.setParams line) .pure
def paramNum : Cmd Int := .op .paramNum .pure
def param (i : Nat) : Cmd Text := .op (.param i) .pure
def getTokens (inStr delim : Text) : Cmd (List Text) := .op (.getTokens inStr delim) .pure
def call (line : Text) : Cmd Unit := .op (.call line) .pure
def fault {α : Type} (f : Fault) : Cmd α := .op (.fault f) Empty.elim
def print (t : Text) : Cmd Unit := .op (.print t) .pure
def lock : Cmd Unit := .op .lock .pure
def unlock : Cmd Unit := .op .unlock .pure
def getClientFlag (clientNum : Int) : Cmd Int := .op (.getClientFlag clientNum) .pure
def setClientFlag (clientNum flag : Int) : Cmd Unit := .op (.setClientFlag clientNum flag) .pure
def getClientIpAddr (clientNum : Int) : Cmd Text := .op (.getClientIpAddr clientNum) .pure
def setClientIpAddr (clientNum : Int) (ipAddr : Text) : Cmd Unit :=
  .op (.setClientIpAddr clientNum ipAddr) .pure
def closeSocket (clientNum : Int) : Cmd Unit := .op (.closeSocket clientNum) .pure
def delClientSockAddr (clientNum : Int) : Cmd Unit := .op (.delClientSockAddr clientNum) .pure
def networkConfig (cNum : Int) (ipAddr : Text) : Cmd AtStat := .op (.networkConfig cNum ipAddr) .pure
def changeClientAddr (cNum : Int) (ipAddr : Text) : Cmd AtStat :=
  .op (.changeClientAddr cNum ipAddr) .pure
def getSendThreadID : Cmd Tid := .op .getSendThreadID .pure
def setSendThreadID (id : Tid) : Cmd Unit := .op (.setSendThreadID id) .pure
def getRecThreadID : Cmd Tid := .op .getRecThreadID .pure
def setRecThreadID (id : Tid) : Cmd Unit := .op (.setRecThreadID id) .pure
def getScriptThreadID (scriptNum : Int) : Cmd Tid := .op (.getScriptThreadID scriptNum) .pure
def setScriptThreadID (scriptNum : Int) (id : Tid) : Cmd Unit :=
  .op (.setScriptThreadID scriptNum id) .pure
def pthreadCreate (routine : Routine) : Cmd (Option Tid) := .op (.pthreadCreate routine) .pure
def pthreadKill (id : Tid) : Cmd Unit := .op (.pthreadKill id) .pure
def pthreadJoin (id : Tid) : Cmd Unit := .op (.pthreadJoin id) .pure
def pthreadExit : Cmd Unit := .op .pthreadExit .pure
def signal : Cmd Unit := .op .signal .pure
def getCountOfSuccessCall (type : Nat) (clientNum : Int) : Cmd Int :=
  .op (.getCountOfSuccessCall type clientNum) .pure
def setCountOfSuccessCall (type : Nat) (clientNum value : Int) : Cmd Unit :=
  .op (.setCountOfSuccessCall type clientNum value) .pure
def getCountOfScriptRun (scriptNum : Int) : Cmd Int := .op (.getCountOfScriptRun scriptNum) .pure
def setCountOfScriptRun (scriptNum value : Int) : Cmd Unit :=
  .op (.setCountOfScriptRun scriptNum value) .pure
def gScriptParamInit : Cmd Unit := .op .gScriptParamInit .pure
def getScriptName (scriptNum : Int) : Cmd Text := .op (.getScriptName scriptNum) .pure
def setScriptName (scriptNum : Int) (name : Text) : Cmd Unit :=
  .op (.setScriptName scriptNum name) .pure
def printConfFileName : Cmd Unit := .op .printConfFileName .pure
def setConfFileName (name : Text) : Cmd Unit := .op (.setConfFileName name) .pure
def openMsgFile : Cmd Int := .op .openMsgFile .pure
def ftok : Cmd Int := .op .ftok .pure
def msgget (key : Int) : Cmd Int := .op (.msgget key) .pure
def msgsnd (m : MsgQ) : Cmd Int := .op (.msgsnd m) .pure
def getSysLogPortNum : Cmd Int := .op .getSysLogPortNum .pure
def fopen (name : Text) : Cmd (Option Text) := .op (.fopen name) .pure
def fclose : Cmd Unit := .op .fclose .pure
def fopenNote : Cmd Bool := .op .fopenNote .pure
def fwriteNote (t : Text) : Cmd Int := .op (.fwriteNote t) .pure
def getSysTime : Cmd Text := .op .getSysTime .pure
def sleep (seconds : Int) : Cmd Unit := .op (.sleep seconds) .pure
def usleep : Cmd Unit := .op .usleep .pure
def rand : Cmd (List Nat) := .op .rand .pure
def mallocScript (slot : Int) : Cmd Bool := .op (.mallocScript slot) .pure
def mallocTemp : Cmd Bool := .op .mallocTemp .pure
def copyScript (slot : Int) (lines : List Text) : Cmd Unit := .op (.copyScript slot lines) .pure
def scriptCmd (slot : Int) (index : Nat) : Cmd Text := .op (.scriptCmd slot index) .pure
def freeScript (slot : Int) : Cmd Unit := .op (.freeScript slot) .pure

def say (s : String) : Cmd Unit := print s.toList

def printLine (t : Text) : Cmd Unit := print (t ++ "\n".toList)

/-- Perform one command for each element, in order. -/
def each {α : Type} : List α → (α → Cmd Unit) → Cmd Unit
  | [], _ => pure ()
  | a :: as, f => do
    f a
    each as f

/-- `snprintf` with a text of the user as the format. -/
def snprintf (size : Nat) (fmt : Text) : Cmd Text :=
  match CString.snprintf size fmt with
  | some t => pure t
  | none => fault .format

theorem snprintf_some {size : Nat} {fmt t : Text} (h : CString.snprintf size fmt = some t) :
    Cmd.snprintf size fmt = .pure t := by
  simp [Cmd.snprintf, h]

theorem snprintf_none {size : Nat} {fmt : Text} (h : CString.snprintf size fmt = none) :
    Cmd.snprintf size fmt = fault .format := by
  simp [Cmd.snprintf, h]

/-- `sprintf` into a buffer of `size` bytes. -/
def sprintf (size : Nat) (t : Text) : Cmd Text :=
  if t.length < size then pure t else fault .overflow

end Cmd

/-! ## The command table -/

inductive Func where
  | showHelp
  | autoConfig
  | addClient
  | call
  | changeClientIpAddr
  | delClient
  | delay
  | ioevt
  | look
  | quit
  | runScript
  | randomTime
  | randomKey
  | showClient
  | start
  | stop
  | syslogConf
  | hideFeatureProc
  deriving DecidableEq, Repr

/-- `cmd_t`, without the description that no entry sets. -/
structure CmdEntry where
  cmdName : Text
  nickName : Text
  example' : Text
  func : Func

private def entry (name nick ex : String) (func : Func) : CmdEntry :=
  ⟨name.toList, nick.toList, ex.toList, func⟩

def gCmdLib : List CmdEntry :=
  [entry "help" "h" "help: h/help" .showHelp,
   entry "autoConfig" "ac" "autoConfig: autoConfig config.txt" .autoConfig,
   entry "add" "ad" "add: add 1(client number) 192.168.10.1(ip address)" .addClient,
   entry "call" "call" "call: call 1(client number) 1000(tel number)" .call,
   entry "changeIp" "ci" "changeIp: changeIp 1(client number) 192.168.10.1(ip address)"
     .changeClientIpAddr,
   entry "del" "dl" "del: del 1(client number)" .delClient,
   entry "delay" "dy" "delay: delay 5(secends)" .delay,
   entry "ioevt" "ie" "ioevt: ioevt 1(client number) 1,2(key number) p/l(action)" .ioevt,
   entry "call" "call" "call: call 1(client number) 1000(tel number)" .call,
   entry "look" "l" "look: look" .look,
   entry "quit" "q" "quit: quit" .quit,
   entry "runScript" "rs" "runScript: runScript 1(thread Num) script.txt(script file name)"
     .runScript,
   entry "randomTime" "rt" "randomTime: randomTime 1(min) 10(max)" .randomTime,
   entry "randomKey" "rk" "randomKey: randomKey 1(client Num)" .randomKey,
   entry "show" "s" "show: show" .showClient,
   entry "start" "st"
     "start: ____test: start test\n         |_rec:  start rec\n         |_all:  start all" .start,
   entry "stop" "sp"
     "stop:  ____test: stop test\n         |_rec:  stop rec\n         |_rec:  stop 1(thread num) script\n         |_all:  stop all"
     .stop,
   entry "syslog" "sl" "syslog: syslog 1(client) enable/disable/record" .syslogConf,
   entry "hideFeature" "hf" "hideFeature: hideFeature 1(client) enable/disable" .hideFeatureProc]

def cmdEntry (cmdNum : Nat) : CmdEntry :=
  gCmdLib.getD cmdNum ⟨[], [], [], .showHelp⟩

/-- The first entry with this name or nickname, `FAILED` being `none`. -/
def getCmdCode (str : Text) : Option Nat :=
  gCmdLib.findIdx? fun e => e.cmdName = str || e.nickName = str

/-- The handler that a command name selects. -/
def commandFunc (name : Text) : Option Func :=
  (getCmdCode name).map fun cmdNum => (cmdEntry cmdNum).func

end AutoTest
