import AutoTest.Handlers

/-!
# The script thread

`cpScriptContentToArray` and `scriptCmdProcess`. One index walks the stored
lines: the outer loop advances it, the search for `start` and `end` advances
it, and the replay of a block sets it.
-/

namespace AutoTest

open CString Program Cmd

def cmdLoop : Text := "loop".toList
def loopStartWord : Text := "start".toList
def loopEndWord : Text := "end".toList

/-- The lines of a file that are stored. -/
def scriptContent (file : Text) : List Text := (scriptReads file).filterMap scriptLine

def reportLine (line : Text) : Cmd Unit :=
  if line.head? = some '#' ∨ line.head? = some '\n' then pure ()
  else if scriptLine line = none then say "parse error!\n"
  else pure ()

/-- The index of the last line stored, which is `FAILED` when there is none. -/
def cpScriptContentToArray (slot : Int) (file : Text) : Cmd Int := do
  if ← mallocTemp then
    each (scriptReads file) reportLine
    copyScript slot (scriptContent file)
    pure ((scriptContent file).length - 1)
  else pure failed

/-- The search for the line of `start` and the line of `end`. Only an `end`
line leaves it; `loopStart` keeps its value when no `start` is passed. -/
def scanBlock (slot : Int) : Nat → Nat → Option Nat → Cmd (Option Nat × Nat)
  | 0, _, _ => fault .diverge
  | fuel + 1, index, loopStart => do
    let line ← scriptCmd slot index
    let loopStart := if beginsNoCase loopStartWord line then some (index + 1) else loopStart
    let line ← scriptCmd slot index
    if beginsNoCase loopEndWord line then pure (loopStart, index)
    else scanBlock slot fuel (index + 1) loopStart

/-- The commands at `count` successive indices. -/
def playLines (slot : Int) : Nat → Nat → Cmd Unit
  | 0, _ => pure ()
  | count + 1, index => do
    Cmd.call (← scriptCmd slot index)
    playLines slot count (index + 1)

/-- `loopTime` more rounds of a block; an empty block leaves the loop at once. -/
def playBlock (slot : Int) (loopStart loopEnd : Nat) : Nat → Cmd Unit
  | 0 => pure ()
  | loopTime + 1 =>
    if loopEnd < loopStart then pure ()
    else do
      playLines slot (loopEnd + 1 - loopStart) loopStart
      let count ← getCountOfScriptRun slot
      setCountOfScriptRun slot (int32 (count + 1))
      playBlock slot loopStart loopEnd loopTime

def endScript (slot : Int) : Cmd Unit := do
  freeScript slot
  setScriptThreadID slot 0
  pthreadExit

/-- The text after the first space of a `loop` line, copied into `parameter`,
which holds nine characters. -/
def loopParameter (line : Text) : Cmd Text :=
  match strstr cSpace line with
  | none => fault .invalid
  | some p => sprintf 10 (p.drop 1)

/-- The walk over the stored lines, the last one at `scriptLineNum`. -/
def scriptLoop (slot : Int) (scriptLineNum : Nat) : Nat → Nat → Option Nat → Cmd Unit
  | 0, _, _ => fault .diverge
  | fuel + 1, index, loopStart =>
    if index > scriptLineNum then endScript slot
    else do
      let line ← scriptCmd slot index
      if beginsNoCase cmdLoop line then
        let loopTime := atoi (← loopParameter line)
        if loopTime > 0 then
          let (loopStart, endLine) ← scanBlock slot (maxScLine + 1) (index + 1) loopStart
          match loopStart with
          | none => fault .invalid
          | some first =>
            playBlock slot first (endLine - 1) loopTime.toNat
            scriptLoop slot scriptLineNum fuel (endLine + 1) loopStart
        else
          say "please spacify loop times!\n"
          setScriptThreadID slot 0
          endScript slot
      else
        Cmd.call (← scriptCmd slot index)
        scriptLoop slot scriptLineNum fuel (index + 1) loopStart

/-- The slot number is read from the token array when the thread first runs. -/
def scriptCmdProcess : Cmd Unit := do
  Cmd.signal
  let scriptNum := atoi (← param 1)
  setCountOfScriptRun scriptNum 0
  let name ← getScriptName scriptNum
  match ← fopen name with
  | none =>
    say "\nscript file open failed!\n"
    setScriptThreadID scriptNum 0
    pthreadExit
  | some file =>
    if ← mallocScript scriptNum then
      let scriptLineNum ← cpScriptContentToArray scriptNum file
      if scriptLineNum = failed then
        say "cp error\n"
        endScript scriptNum
      else scriptLoop scriptNum scriptLineNum.toNat (maxScLine + 1) 0 none
    else endScript scriptNum

end AutoTest
