import AutoTest.Handlers

/-! The log texts of the phones: which event a text reports, which client it
names, and what `syslogProcess` does about it. -/

namespace AutoTest

open CString Program Cmd

/-- `eLogStr`, without the bound `LOG_INVALID`. -/
inductive LogStr where
  | suspend
  | talkBuild
  | talkConference
  deriving DecidableEq, Repr

def gLogStrLib : LogStr → Text
  | .suspend => "suspended".toList
  | .talkBuild => "doubleTalk".toList
  | .talkConference => "trebleTalk".toList

/-- The first event of the table whose word occurs, `RET_ERROR` being `none`. -/
def getLogMsgIssueId (log : Text) : Option LogStr :=
  [.suspend, .talkBuild, .talkConference].find? fun i => (strstr (gLogStrLib i) log).isSome

/-- The characters that the scan of a client field copies: those after the
first `client` and one separator, up to a space. The scan has no other end. -/
def clientField (log : Text) : Except Fault Text :=
  match strstr strClient log with
  | none => .error .invalid
  | some p =>
    let field := p.drop (strClient.length + 1)
    if ' ' ∈ field then .ok (field.takeWhile (· ≠ ' ')) else .error .overflow

/-- `tmpBuff` has three bytes, the last of which must stay zero. A text without
`client` yields `AT_ERROR`, which is two. -/
def getLogClientNum (log : Text) : Except Fault Int :=
  if strstr strClient log = none then .ok AtStat.error.toInt
  else
    match clientField log with
    | .error f => .error f
    | .ok field => if field.length ≤ 2 then .ok (atoi field) else .error .overflow

def countCall (type : Nat) (clientNum : Int) : Cmd Unit := do
  let retNum ← getCountOfSuccessCall type clientNum
  setCountOfSuccessCall type clientNum (int32 (retNum + 1))

def syslogProcess (log : Text) : Cmd Unit :=
  match getLogMsgIssueId log with
  | none => pure ()
  | some issueId =>
    match getLogClientNum log with
    | .error f => fault f
    | .ok clientNum =>
      if clientNum > minClient ∧ clientNum < maxClient then
        match issueId with
        | .suspend => do
          lock
          setClientFlag clientNum unused
          setClientIpAddr clientNum []
          closeSocket clientNum
          delClientSockAddr clientNum
          unlock
        | .talkBuild => countCall 0 clientNum
        | .talkConference => countCall 1 clientNum
      else pure ()

end AutoTest
