import AutoTest.Command

/-!
# The command handlers

`cmdProc` and the handlers of the command table, operation by operation.
Two reads of one token with nothing between them are one operation; a read
that comes after a blocking call is an operation of its own.
-/

namespace AutoTest

open CString Program Cmd

def wrongParameter (cmdNum : Nat) : Cmd Unit := do
  say "wrong parameter!!\n"
  printLine (cmdEntry cmdNum).example'

/-! ## Formatting, configuration and clients -/

def showHelp : Cmd Unit :=
  each gCmdLib fun e => if e.example'.length > 0 then printLine e.example' else pure ()

/-- The filter of a line read from a script: comments, empty lines and lines
without a semicolon yield nothing. -/
def scriptLine (line : Text) : Option Text :=
  if line.head? = some '#' ∨ line.head? = some '\n' then none
  else if ';' ∈ line then some (line.takeWhile (· ≠ ';'))
  else none

/-- The strings `fgets` delivers with a buffer of `MAX_CMD_LEN` bytes. -/
def scriptReads (file : Text) : List Text := fgets (maxCmdLen - 1) file

def autoConfigLine (line : Text) : Cmd Unit :=
  if line.head? = some '#' ∨ line.head? = some '\n' then pure ()
  else
    match scriptLine line with
    | some cmdTmp => Cmd.call cmdTmp
    | none => say "parse error!\n"

def autoConfig (cmdNum : Nat) : Cmd Unit := do
  let gParamNum ← paramNum
  if gParamNum ≠ 1 then wrongParameter cmdNum
  else
    let name ← Cmd.snprintf maxFileName (← param 1)
    setConfFileName name
    match ← fopen name with
    | none => pure ()
    | some file =>
      each (scriptReads file) autoConfigLine
      fclose

/-- The code keeps the pointer to the address, here its text: the same as long
as no other line is tokenised before the copy. `Roster` follows the pointer. -/
def addClient (cmdNum : Nat) : Cmd Unit := do
  let gParamNum ← paramNum
  if gParamNum < 2 then wrongParameter cmdNum
  else
    let clientNum := atoi (← param 1)
    let ipAddr ← param 2
    lock
    let stat ← getClientFlag clientNum
    unlock
    if stat = used then say "client num exist! add failed\n"
    else if (← networkConfig clientNum ipAddr) = .failed then printLine (cmdEntry cmdNum).example'
    else
      lock
      setClientFlag clientNum used
      setClientIpAddr clientNum ipAddr
      unlock
      say "add client OK!\n"

/-- The argument is read before the number of arguments is looked at. -/
def delClient (cmdNum : Nat) : Cmd Unit := do
  let clientNum := atoi (← param 1)
  let gParamNum ← paramNum
  if gParamNum < 1 ∨ clientNum > maxClient ∨ clientNum < minClient then wrongParameter cmdNum
  else
    lock
    let stat ← getClientFlag clientNum
    unlock
    if stat = unused then print ("client ".toList ++ toText clientNum ++ " not configured!\n".toList)
    else
      lock
      setClientFlag clientNum unused
      setClientIpAddr clientNum []
      closeSocket clientNum
      delClientSockAddr clientNum
      unlock

/-- With the text of the address for the pointer, as in `addClient`. -/
def changeClientIpAddr (cmdNum : Nat) : Cmd Unit := do
  let gParamNum ← paramNum
  if gParamNum < 2 then wrongParameter cmdNum
  else
    let clientNum := atoi (← param 1)
    let ipAddr ← param 2
    lock
    let stat ← getClientFlag clientNum
    unlock
    if stat = unused then say "client num no exist! add client!\n"
    else if (← changeClientAddr clientNum ipAddr) = .failed then say "client edit failed!\n"
    else
      lock
      setClientIpAddr clientNum ipAddr
      unlock
      say "change client Ip address OK!\n"

def showClientEntry (index : Nat) : Cmd Unit := do
  print (toText index ++ "     ".toList)
  lock
  let stat ← getClientFlag index
  unlock
  if stat = unused then say "UNUSED\n"
  else
    let ipAddr ← getClientIpAddr index
    print ("\"".toList ++ ipAddr ++ "\"\n".toList)

def showScriptEntry (index : Nat) : Cmd Unit := do
  print (toText index ++ "     ".toList)
  if (← getScriptThreadID index) = 0 then say "UNUSED\n"
  else
    let name ← getScriptName index
    print ("\"".toList ++ name ++ "\"\n".toList)

def showClient (cmdNum : Nat) : Cmd Unit := do
  let gParamNum ← paramNum
  if gParamNum > 0 then
    say "too many parameter!!\n"
    printLine (cmdEntry cmdNum).example'
  printConfFileName
  say "client Parameter:\n"
  each (List.range 10) showClientEntry
  say "script Parameter:\n"
  each (List.range 10) showScriptEntry

/-! ## Messages to the phones -/

def validClients : Cmd Unit := say "valid client number:0 - 9\n"

/-- The canonical name of a command typed by its nickname. -/
def cmdCode (cmdNum : Nat) (typed : Text) : Cmd Text :=
  if typed = (cmdEntry cmdNum).nickName then Cmd.snprintf maxCmdCode (cmdEntry cmdNum).cmdName
  else Cmd.snprintf maxCmdCode typed

/-- The codes of the keys in order, or the first text that is no key. -/
def keyCodes : List Text → Except Text (List Text)
  | [] => .ok []
  | k :: ks =>
    match getKeyCode k with
    | none => .error k
    | some index =>
      match keyCodes ks with
      | .error e => .error e
      | .ok codes => .ok ((gKeyLib index).keyCode.take (maxKeyLenth - 1) :: codes)

def msgsndOrSay (m : MsgQ) (failure : String) : Cmd Unit := do
  if (← msgsnd m) = failed then say failure

/-- `ioevt_param` has ten entries; the count is tested after they are written. -/
def ioevt (cmdNum : Nat) : Cmd Unit := do
  let gParamNum ← paramNum
  if gParamNum ≠ 3 then wrongParameter cmdNum
  else
    let action ← param 3
    if action ≠ keyPress ∧ action ≠ keyLongPress then wrongParameter cmdNum
    else
      let clientNum := atoi (← param 1)
      if clientNum > maxClient - 1 ∨ clientNum < minClient then validClients
      else if (← getSendThreadID) = 0 then say "please start test mode first!\n"
      else
        let code ← cmdCode cmdNum (← param 0)
        let clientNum := atoi (← param 1)
        if clientNum > maxClient ∨ clientNum < minClient then pure ()
        else
          let action ← Cmd.snprintf maxActLenth (← param 3)
          let keys ← Cmd.snprintf (2 * maxIoevt) (← param 2)
          let ioevtParam ← Cmd.getTokens keys cComma
          if ioevtParam.length > maxIoevt then fault .bounds
          else
            match keyCodes ioevtParam with
            | .error k => print ("keycode not found:".toList ++ k ++ "\n".toList)
            | .ok codes =>
              let obj : Ioevt := ⟨codes ++ List.replicate (maxIoevt - codes.length) [], action⟩
              msgsndOrSay ⟨clientNum, ⟨code, .ioevtObj obj⟩⟩ "msg ioevt send failed!"

def call (cmdNum : Nat) : Cmd Unit := do
  let gParamNum ← paramNum
  if gParamNum ≠ 2 then wrongParameter cmdNum
  else
    let clientNum := atoi (← param 1)
    if clientNum > maxClient - 1 ∨ clientNum < minClient then validClients
    else if (← getSendThreadID) = 0 then say "please start test mode first!\n"
    else
      let code ← Cmd.snprintf maxCmdCode (← param 0)
      let shared ← Cmd.snprintf maxSharedLenth (← param 2)
      msgsndOrSay ⟨clientNum, ⟨code, .shared shared⟩⟩ "msg call send failed!"

/-- ` client <c> syslogPort <port>`, which ends the text of `syslog`. -/
def syslogSuffix (clientNum port : Int) : Text :=
  cSpace ++ strClient ++ cSpace ++ toText clientNum ++ cSpace ++ strSyslogPort ++
    cSpace ++ toText port

def syslogConf (cmdNum : Nat) : Cmd Unit := do
  let gParamNum ← paramNum
  if gParamNum < 2 then wrongParameter cmdNum
  else
    let clientNum := atoi (← param 1)
    if clientNum > maxClient - 1 ∨ clientNum < minClient then validClients
    else if (← getSendThreadID) = 0 then say "please start test mode first!\n"
    else
      let code ← cmdCode cmdNum (← param 0)
      let clientNum := atoi (← param 1)
      if gParamNum = 3 then
        let first ← param 2
        let second ← param 3
        let port ← getSysLogPortNum
        let shared := (first ++ cSpace ++ second ++ syslogSuffix clientNum port).take
          (maxSharedLenth - 1)
        msgsndOrSay ⟨clientNum, ⟨code, .shared shared⟩⟩ "msg syslog send failed!"
      else
        let first ← param 2
        let port ← getSysLogPortNum
        let shared := (first ++ syslogSuffix clientNum port).take (maxSharedLenth - 1)
        msgsndOrSay ⟨clientNum, ⟨code, .shared shared⟩⟩ "msg syslog send failed!"

def hideFeatureProc (cmdNum : Nat) : Cmd Unit := do
  let gParamNum ← paramNum
  if gParamNum < 2 then wrongParameter cmdNum
  else
    let clientNum := atoi (← param 1)
    if clientNum > maxClient - 1 ∨ clientNum < minClient then validClients
    else if (← getSendThreadID) = 0 then say "please start test mode first!\n"
    else
      let code ← cmdCode cmdNum (← param 0)
      let clientNum := atoi (← param 1)
      let shared := (← param 2).take (maxSharedLenth - 1)
      msgsndOrSay ⟨clientNum, ⟨code, .shared shared⟩⟩ "msg syslog send failed!"

/-! ## Threads -/

def createRec : Cmd Unit := do
  match ← pthreadCreate .retReceive with
  | none => say "Create rec pthread error!\n"
  | some recId =>
    setRecThreadID recId
    say "receiving\n"

def startAllRec (recId : Tid) : Cmd Unit :=
  if recId = 0 then createRec else say "start rec mode already!"

/-- The sender is created, and `rest` follows once its handle is stored. -/
def startSend (rest : Cmd Unit) : Cmd Unit := do
  match ← pthreadCreate .cmdSend with
  | none => say "Create test pthread error!\n"
  | some id =>
    setSendThreadID id
    rest

/-- `start` from the comparison with `all` on. -/
def startMode (cmdNum : Nat) (sendId recId : Tid) : Cmd Unit := do
  let mode ← param 1
  if mode = paramAll then
    if sendId = 0 then
      startSend do
        say "testing!\n"
        startAllRec recId
    else
      say "start test mode already!\n"
      startAllRec recId
  else if mode = paramTest then
    if sendId ≠ 0 then say "start test mode already!\n" else startSend (say "testing!\n")
  else wrongParameter cmdNum

/-- The queue is opened and the script names are wiped before the argument is
compared with `all` and `test`. -/
def start (cmdNum : Nat) : Cmd Unit := do
  let gParamNum ← paramNum
  if gParamNum < 1 ∨ gParamNum > 1 then wrongParameter cmdNum
  else
    let sendId ← getSendThreadID
    let recId ← getRecThreadID
    let mode ← param 1
    if mode = paramRec then
      if recId ≠ 0 then say "start rec mode already!" else createRec
    else if (← openMsgFile) = AtStat.failed.toInt then say "\nMSG_FILE open failed!\n"
    else
      let key ← ftok
      if key = -1 then say "Creat Key Error\n"
      else if (← msgget key) = -1 then say "Creat Message  Error\n"
      else
        gScriptParamInit
        startMode cmdNum sendId recId

def stopSend (sendId : Tid) : Cmd Unit :=
  if sendId ≠ 0 then do
    pthreadKill sendId
    pthreadJoin sendId
    setSendThreadID 0
    say "test mode stoped!\n"
  else pure ()

def stopRec (recId : Tid) : Cmd Unit :=
  if recId ≠ 0 then do
    pthreadKill recId
    pthreadJoin recId
    setRecThreadID 0
    say "rec mode stoped!\n"
  else pure ()

def stopScript (index : Nat) : Cmd Unit := do
  let scId ← getScriptThreadID index
  if scId = 0 then pure ()
  else
    pthreadKill scId
    pthreadJoin scId
    setScriptThreadID index 0

/-- After the `pthread_join` of `stop n script` the slot number is read from
the token array again. -/
def stop (cmdNum : Nat) : Cmd Unit := do
  let sendId ← getSendThreadID
  let recId ← getRecThreadID
  let gParamNum ← paramNum
  if gParamNum ≠ 1 ∧ gParamNum ≠ 2 then wrongParameter cmdNum
  else
    let mode ← param 1
    if mode = paramAll then
      stopSend sendId
      stopRec recId
      each (List.range 10) stopScript
      gScriptParamInit
      say "script mode stoped!\n"
    else if mode = paramTest then stopSend sendId
    else if mode = paramRec then stopRec recId
    else if (← param 2) = paramSc then
      let scriptNum := atoi (← param 1)
      if scriptNum < 0 ∨ scriptNum > maxScriptThread then say "wrong parameter\n"
      else
        let scId ← getScriptThreadID scriptNum
        if scId = 0 then pure ()
        else
          pthreadKill scId
          pthreadJoin scId
          setScriptThreadID (atoi (← param 1)) 0
          print ("script ".toList ++ toText (atoi (← param 1)) ++ " stoped!\n".toList)
    else wrongParameter cmdNum

/-- `time\n` or `times\n`. -/
def timesText (count : Int) : Text := if count ≤ 1 then "time\n".toList else "times\n".toList

/-- The count is read once for the word at the end, and again to be written. -/
def callReport (i : Nat) (tested count : Int) : Text :=
  strClient ++ toText i ++ ": ".toList ++ toText count ++ cSpace ++ timesText tested

def scriptReport (name : Text) (tested count : Int) : Text :=
  name ++ ": ".toList ++ toText count ++ cSpace ++ timesText tested ++ "\n".toList

def callTypeTitle (j : Nat) : Text :=
  if j = 0 then "doubleTalk:\n".toList else "trebleTalk:\n".toList

def noteClients (j : Nat) : List Nat → Int → Cmd Int
  | [], ret => pure ret
  | i :: rest, _ => do
    let tested ← getCountOfSuccessCall j i
    let count ← getCountOfSuccessCall j i
    let tmp ← sprintf maxTmpLenth (callReport i tested count)
    let ret ← fwriteNote tmp
    if ret ≤ 0 then
      say "call note write failed\n"
      noteClients j rest ret
    else noteClients j rest ret

def noteCalls (j : Nat) : Cmd Int := do
  let ret ← fwriteNote ((callTypeTitle j).take (maxTmpLenth - 1))
  noteClients j (List.range 10) ret

/-- The name is read as the text is written. -/
def noteScript (index : Nat) (tested count : Int) : Cmd Int := do
  let name ← getScriptName index
  let tmp ← sprintf maxTmpLenth (scriptReport name tested count)
  fwriteNote tmp

def noteScripts : List Nat → Int → Cmd Int
  | [], ret => pure ret
  | index :: rest, ret => do
    if (← getScriptThreadID index) = 0 then noteScripts rest ret
    else
      let tested ← getCountOfScriptRun index
      let count ← getCountOfScriptRun index
      noteScripts rest (← noteScript index tested count)

def quitSend (sendId : Tid) : Cmd Unit :=
  if sendId ≠ 0 then do
    pthreadKill sendId
    pthreadJoin sendId
    say "test mode stoped!"
  else pure ()

def quitRec (recId : Tid) : Cmd Unit :=
  if recId ≠ 0 then do
    pthreadKill recId
    pthreadJoin recId
    say "rec mode stoped!"
  else pure ()

def quitEnd (ret : Int) : Cmd Unit := do
  fclose
  if ret ≤ 0 then say "script note write failed\n" else say "all ok!exit!!\n"

/-- The note of the calls and scripts; the stream is used without a test. -/
def quitNote : Cmd Unit := do
  if ← fopenNote then
    let tmp ← getSysTime
    let _ ← fwriteNote tmp
    let _ ← noteCalls 0
    let ret ← noteCalls 1
    quitEnd (← noteScripts (List.range 10) ret)
  else fault .invalid

/-- The handles of the threads it joins are kept. -/
def quit (_cmdNum : Nat) : Cmd Unit := do
  let sendId ← getSendThreadID
  let recId ← getRecThreadID
  quitSend sendId
  quitRec recId
  quitNote

def runScript (cmdNum : Nat) : Cmd Unit := do
  if (← getSendThreadID) = 0 then say "please start test mode first!\n"
  else
    let gParamNum ← paramNum
    if gParamNum ≠ 2 then wrongParameter cmdNum
    else
      let scriptNum := atoi (← param 1)
      if scriptNum > maxScriptThread ∨ scriptNum < 0 then wrongParameter cmdNum
      else if (← getScriptThreadID scriptNum) ≠ 0 then say "script is running\n"
      else
        let name ← Cmd.snprintf maxFileName (← param 2)
        setScriptName scriptNum name
        match ← pthreadCreate .scriptCmdProcess with
        | none => say "Create runScript pthread error!\n"
        | some scId => setScriptThreadID scriptNum scId

/-! ## Time and random keys -/

def delay (cmdNum : Nat) : Cmd Unit := do
  let gParamNum ← paramNum
  if gParamNum ≠ 1 then wrongParameter cmdNum
  else
    let delayTime := atoi (← param 1)
    if delayTime > 0 then sleep delayTime else pure ()

/-- Round to nearest even at 24 significant bits, as conversion to `float`. -/
def toFloat (x : Nat) : Nat :=
  let shift := x.log2 - 23
  let low := x % 2 ^ shift
  let high := x / 2 ^ shift
  if 2 * low > 2 ^ shift ∨ (2 * low = 2 ^ shift ∧ high % 2 = 1) then (high + 1) * 2 ^ shift
  else high * 2 ^ shift

/-- `(int)((float)max * rand() / (RAND_MAX + 1.0))`, the division being exact. -/
def scaleRand (max r : Nat) : Nat := toFloat (toFloat max * toFloat r) / 2 ^ 31

def getRandValue (minRand maxRand : Int) (r : Nat) : Int :=
  if maxRand ≤ 0 ∨ minRand < 0 ∨ maxRand < minRand then failed
  else int32 (minRand + scaleRand maxRand.toNat r)

def randomTime (cmdNum : Nat) : Cmd Unit := do
  let gParamNum ← paramNum
  if gParamNum ≠ 2 then wrongParameter cmdNum
  else
    let minTime := atoi (← param 1)
    let maxTime := atoi (← param 2)
    if minTime ≥ maxTime then wrongParameter cmdNum
    -- `getRandValue` fails without a draw
    else if maxTime ≤ 0 ∨ minTime < 0 then pure ()
    else
      match ← rand with
      | [] => fault .diverge
      | r :: _ =>
        let delayTime := getRandValue minTime maxTime r
        if delayTime > 0 then sleep delayTime else pure ()

/-- Draw again while the entry drawn has no key code. -/
def drawKey (randomKeyNum : Int) (draws : List Nat) : Cmd Nat :=
  if randomKeyNum < 0 ∨ randomKeyNum ≥ maxKeyNum then fault .bounds
  else if (gKeyLib randomKeyNum.toNat).keyCode.length > 0 then pure randomKeyNum.toNat
  else
    match draws with
    | [] => fault .diverge
    | r :: rs => drawKey (getRandValue 0 maxKeyNum r) rs

def randomKeyLine (client keyName : Text) : Text :=
  "ioevt ".toList ++ client ++ cSpace ++ keyName ++ " p".toList

/-- The handler once a key is drawn. -/
def callRandomKey (randomKeyNum : Nat) : Cmd Unit := do
  let client ← param 1
  let cmdRandomKey ← sprintf maxCmdLen (randomKeyLine client (gKeyLib randomKeyNum).keyName)
  Cmd.call cmdRandomKey
  usleep

/-- The handler from the first draw on. -/
def sendRandomKey (randomKeyNum : Int) (draws : List Nat) : Cmd Unit := do
  if randomKeyNum = failed then say "randomKey parse error!\n"
  else callRandomKey (← drawKey randomKeyNum draws)

def randomKey (cmdNum : Nat) : Cmd Unit := do
  let gParamNum ← paramNum
  if gParamNum ≠ 1 then wrongParameter cmdNum
  else
    match ← rand with
    | [] => fault .diverge
    | r :: rs => sendRandomKey (getRandValue 0 maxKeyNum r) rs

def lookClient (j i : Nat) : Cmd Unit := do
  let tested ← getCountOfSuccessCall j i
  let count ← getCountOfSuccessCall j i
  print (callReport i tested count)

def lookCalls (j : Nat) : Cmd Unit := do
  print (callTypeTitle j)
  each (List.range 10) (lookClient j)

def lookScript (index : Nat) : Cmd Unit := do
  if (← getCountOfScriptRun index) ≠ 0 then
    let count ← getCountOfScriptRun index
    let name ← getScriptName index
    print ("Run script file ".toList ++ name ++ ":".toList ++ toText count ++ "\n".toList)

def look (_cmdNum : Nat) : Cmd Unit := do
  each (List.range maxCallType) lookCalls
  each (List.range 10) lookScript

/-! ## Dispatch -/

def Func.run : Func → Nat → Cmd Unit
  | .showHelp, _ => AutoTest.showHelp
  | .autoConfig, cmdNum => AutoTest.autoConfig cmdNum
  | .addClient, cmdNum => AutoTest.addClient cmdNum
  | .call, cmdNum => AutoTest.call cmdNum
  | .changeClientIpAddr, cmdNum => AutoTest.changeClientIpAddr cmdNum
  | .delClient, cmdNum => AutoTest.delClient cmdNum
  | .delay, cmdNum => AutoTest.delay cmdNum
  | .ioevt, cmdNum => AutoTest.ioevt cmdNum
  | .look, cmdNum => AutoTest.look cmdNum
  | .quit, cmdNum => AutoTest.quit cmdNum
  | .runScript, cmdNum => AutoTest.runScript cmdNum
  | .randomTime, cmdNum => AutoTest.randomTime cmdNum
  | .randomKey, cmdNum => AutoTest.randomKey cmdNum
  | .showClient, cmdNum => AutoTest.showClient cmdNum
  | .start, cmdNum => AutoTest.start cmdNum
  | .stop, cmdNum => AutoTest.stop cmdNum
  | .syslogConf, cmdNum => AutoTest.syslogConf cmdNum
  | .hideFeatureProc, cmdNum => AutoTest.hideFeatureProc cmdNum

def dispatch (name : Text) : Cmd Unit :=
  match getCmdCode name with
  | none => say "cmd not found!\n"
  | some cmdNum => (cmdEntry cmdNum).func.run cmdNum

def cmdProc (cmdLine : Text) : Cmd Unit := do
  setParams cmdLine
  dispatch (← param 0)

end AutoTest
