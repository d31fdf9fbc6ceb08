import AutoTest.ByteQueue
import AutoTest.Tokens

/-!
# A message between two stacks

`msgQ_t` has no type of its own: `msgsnd` takes the client number and the
first seven characters of the command code for it, and both calls are passed
the size of the whole structure as that of the body.

* `MsgQ.Built.fits`: no text of a message is cut by its field.
* `queue_hop_overruns`: what `cmd_send` reads back is what was sent, but each
  call takes or writes eight bytes after the structure.
-/

namespace AutoTest

open CString Program Cmd ByteQueue

/-! ## Layout -/

def maxKeyCode : Nat := 10

def byte (c : Char) : UInt8 := UInt8.ofNat c.toNat

/-- An array of `n` characters, cleared before the text is written to it. -/
def charField (n : Nat) (t : Text) : List UInt8 := (t.map byte ++ List.replicate n 0).take n

def sizeofIoevt : Nat := maxKeyCode * maxKeyLenth + maxActLenth

/-- The size of the union, whose members start together. -/
def sizeofCmdParam : Nat := max maxSharedLenth sizeofIoevt

def sizeofCmdObj : Nat := maxCmdCode + sizeofCmdParam

/-- All members are characters, so nothing is padded. -/
def sizeofMsgQ : Nat := 1 + sizeofCmdObj

def Ioevt.bytes (o : Ioevt) : List UInt8 :=
  ((List.range maxKeyCode).flatMap fun index => charField maxKeyLenth (o.ioevt.getD index [])) ++
    charField maxActLenth o.action

def CmdParam.bytes : CmdParam → List UInt8
  | .shared t => charField maxSharedLenth t
  | .ioevtObj o => o.bytes ++ List.replicate (sizeofCmdParam - sizeofIoevt) 0

def CmdObj.bytes (o : CmdObj) : List UInt8 := charField maxCmdCode o.cmdCode ++ o.cmdParamObj.bytes

def MsgQ.bytes (m : MsgQ) : List UInt8 := UInt8.ofNat (m.clientNum % 256).toNat :: m.cmdObj.bytes

@[simp] theorem charField_length (n : Nat) (t : Text) : (charField n t).length = n := by
  simp [charField]

theorem Ioevt.bytes_length (o : Ioevt) : o.bytes.length = sizeofIoevt := by
  simp [Ioevt.bytes, sizeofIoevt, List.length_flatMap]

theorem CmdParam.bytes_length (p : CmdParam) : p.bytes.length = sizeofCmdParam := by
  cases p with
  | shared t => simp [CmdParam.bytes, sizeofCmdParam, sizeofIoevt, maxSharedLenth, maxKeyCode,
    maxKeyLenth, maxActLenth]
  | ioevtObj o =>
    simp [CmdParam.bytes, o.bytes_length, sizeofCmdParam]

theorem MsgQ.bytes_length (m : MsgQ) : m.bytes.length = sizeofMsgQ := by
  simp [MsgQ.bytes, CmdObj.bytes, CmdParam.bytes_length, sizeofMsgQ, sizeofCmdObj, Nat.add_comm]

/-! ## The messages of the handlers -/

abbrev Cmd.Sends (p : Cmd Unit) (m : MsgQ) : Prop := Prog.Performs (S := cmdSig) (Op.msgsnd m) p

/-- The handlers that build messages. -/
def messageFuncs : List Func := [.ioevt, .call, .syslogConf, .hideFeatureProc]

/-- A message that a handler passes to `msgsnd`, whatever it read. -/
structure MsgQ.Built (m : MsgQ) : Prop where
  sends : ∃ f ∈ messageFuncs, ∃ cmdNum, (f.run cmdNum).Sends m
  client : minClient ≤ m.clientNum ∧ m.clientNum ≤ maxClient - 1
  command : m.cmdObj.cmdCode ∈ gCmdLib.map CmdEntry.cmdName

/-- Every text is shorter than its field. -/
def CmdParam.Fits : CmdParam → Prop
  | .shared t => t.length < maxSharedLenth
  | .ioevtObj o => o.ioevt.length = maxKeyCode ∧ (∀ k ∈ o.ioevt, k.length < maxKeyLenth) ∧
      o.action.length < maxActLenth

structure MsgQ.Fits (m : MsgQ) : Prop where
  cmdCode : m.cmdObj.cmdCode.length < maxCmdCode
  cmdParamObj : m.cmdObj.cmdParamObj.Fits

section Fits

def Op.SendsFitting : Op → Prop
  | .msgsnd m => m.Fits
  | _ => True

theorem snprintf_fitting {size : Nat} (room : 0 < size) (fmt : Text) {f : Text → Cmd Unit}
    (next : ∀ t, t.length < size → (f t).Only Op.SendsFitting) :
    (Cmd.snprintf size fmt >>= f).Only Op.SendsFitting := by
  cases copied : CString.snprintf size fmt with
  | none =>
    rw [Cmd.snprintf_none copied]
    exact ⟨trivial, fun r => r.elim⟩
  | some t =>
    rw [Cmd.snprintf_some copied]
    have short := snprintf_length copied
    exact next t (by omega)

theorem cmdCode_fitting (cmdNum : Nat) (typed : Text) {f : Text → Cmd Unit}
    (next : ∀ t, t.length < maxCmdCode → (f t).Only Op.SendsFitting) :
    (cmdCode cmdNum typed >>= f).Only Op.SendsFitting := by
  have room : 0 < maxCmdCode := by decide
  unfold cmdCode
  split
  · exact snprintf_fitting room _ next
  · exact snprintf_fitting room _ next

theorem say_fitting (s : String) : (say s).Only Op.SendsFitting := ⟨trivial, fun _ => trivial⟩

theorem wrongParameter_fitting (cmdNum : Nat) : (wrongParameter cmdNum).Only Op.SendsFitting :=
  .bind_op trivial fun _ => ⟨trivial, fun _ => trivial⟩

theorem msgsndOrSay_fitting {m : MsgQ} (fits : m.Fits) (failure : String) :
    (msgsndOrSay m failure).Only Op.SendsFitting :=
  ⟨fits, fun _ => .ite (fun _ => say_fitting _) fun _ => trivial⟩

/-- The tests that the handlers share. -/
theorem accepted_fitting {f : Text → Cmd Unit} (next : ∀ token, (f token).Only Op.SendsFitting) :
    Prog.Only Op.SendsFitting (do
    let token ← param 1
    if atoi token > maxClient - 1 ∨ atoi token < minClient then validClients
    else if (← getSendThreadID) = 0 then say "please start test mode first!\n"
    else f token) := by
  apply Prog.Only.bind_op trivial
  intro token
  apply Prog.Only.ite (fun _ => say_fitting _)
  intro inside
  apply Prog.Only.bind_op trivial
  intro sendId
  apply Prog.Only.ite (fun _ => say_fitting _)
  intro testing
  exact next token

theorem keyCodes_fit {ks codes : List Text} (h : keyCodes ks = .ok codes) :
    codes.length = ks.length ∧ ∀ c ∈ codes, c.length < maxKeyLenth := by
  induction ks generalizing codes with
  | nil =>
    obtain rfl : [] = codes := by simpa [keyCodes] using h
    simp
  | cons k ks ih =>
    simp only [keyCodes] at h
    split at h
    · cases h
    · split at h
      · cases h
      · rename_i rest later
        obtain rfl := Except.ok.inj h
        obtain ⟨same, short⟩ := ih later
        constructor
        · simp [same]
        · intro c hc
          rcases List.mem_cons.mp hc with rfl | hc
          · have cut := List.length_take_le (maxKeyLenth - 1) (gKeyLib ‹Nat›).keyCode
            simp only [maxKeyLenth] at cut ⊢
            omega
          · exact short c hc

theorem shared_fits (t : Text) : (CmdParam.shared (t.take (maxSharedLenth - 1))).Fits := by
  have cut := List.length_take_le (maxSharedLenth - 1) t
  simp only [CmdParam.Fits, maxSharedLenth] at cut ⊢
  omega

theorem ioevtObj_fits {codes : List Text} (few : codes.length ≤ maxIoevt)
    (short : ∀ c ∈ codes, c.length < maxKeyLenth) {action : Text}
    (fits : action.length < maxActLenth) :
    (CmdParam.ioevtObj ⟨codes ++ List.replicate (maxIoevt - codes.length) [], action⟩).Fits := by
  refine ⟨?_, ?_, fits⟩
  · simp only [List.length_append, List.length_replicate, maxKeyCode]
    simp only [maxIoevt] at few ⊢
    omega
  · intro k hk
    rcases List.mem_append.mp hk with own | empty
    · exact short k own
    · rw [List.eq_of_mem_replicate empty]
      decide

theorem ioevt_fitting (cmdNum : Nat) : (ioevt cmdNum).Only Op.SendsFitting := by
  unfold ioevt
  apply Prog.Only.bind_op trivial
  intro gParamNum
  apply Prog.Only.ite (fun _ => wrongParameter_fitting cmdNum)
  intro three
  apply Prog.Only.bind_op trivial
  intro action
  apply Prog.Only.ite (fun _ => wrongParameter_fitting cmdNum)
  intro known
  apply accepted_fitting
  intro number
  apply Prog.Only.bind_op trivial
  intro typed
  apply cmdCode_fitting
  intro code codeFits
  apply Prog.Only.bind_op trivial
  intro again
  apply Prog.Only.ite
  · intro outside
    trivial
  intro still
  apply Prog.Only.bind_op trivial
  intro third
  apply snprintf_fitting (by decide)
  intro act actFits
  apply Prog.Only.bind_op trivial
  intro second
  apply snprintf_fitting (by decide)
  intro keys keysFit
  apply Prog.Only.bind_op trivial
  intro ioevtParam
  apply Prog.Only.ite
  · intro many
    exact ⟨trivial, fun r => r.elim⟩
  intro few
  cases looked : keyCodes ioevtParam with
  | error k => exact ⟨trivial, fun _ => trivial⟩
  | ok codes =>
    obtain ⟨same, short⟩ := keyCodes_fit looked
    apply msgsndOrSay_fitting
    exact ⟨codeFits, ioevtObj_fits (by omega) short actFits⟩

theorem call_fitting (cmdNum : Nat) : (AutoTest.call cmdNum).Only Op.SendsFitting := by
  unfold AutoTest.call
  apply Prog.Only.bind_op trivial
  intro gParamNum
  apply Prog.Only.ite (fun _ => wrongParameter_fitting cmdNum)
  intro two
  apply accepted_fitting
  intro number
  apply Prog.Only.bind_op trivial
  intro typed
  apply snprintf_fitting (by decide)
  intro code codeFits
  apply Prog.Only.bind_op trivial
  intro second
  apply snprintf_fitting (by decide)
  intro shared sharedFits
  apply msgsndOrSay_fitting
  exact ⟨codeFits, sharedFits⟩

theorem syslogConf_fitting (cmdNum : Nat) : (syslogConf cmdNum).Only Op.SendsFitting := by
  unfold syslogConf
  apply Prog.Only.bind_op trivial
  intro gParamNum
  apply Prog.Only.ite (fun _ => wrongParameter_fitting cmdNum)
  intro enough
  apply accepted_fitting
  intro number
  apply Prog.Only.bind_op trivial
  intro typed
  apply cmdCode_fitting
  intro code codeFits
  apply Prog.Only.bind_op trivial
  intro again
  apply Prog.Only.ite
  · intro three
    repeat refine Prog.Only.bind_op trivial fun _ => ?_
    exact msgsndOrSay_fitting ⟨codeFits, shared_fits _⟩ _
  · intro other
    repeat refine Prog.Only.bind_op trivial fun _ => ?_
    exact msgsndOrSay_fitting ⟨codeFits, shared_fits _⟩ _

theorem hideFeatureProc_fitting (cmdNum : Nat) : (hideFeatureProc cmdNum).Only Op.SendsFitting := by
  unfold hideFeatureProc
  apply Prog.Only.bind_op trivial
  intro gParamNum
  apply Prog.Only.ite (fun _ => wrongParameter_fitting cmdNum)
  intro enough
  apply accepted_fitting
  intro number
  apply Prog.Only.bind_op trivial
  intro typed
  apply cmdCode_fitting
  intro code codeFits
  repeat refine Prog.Only.bind_op trivial fun _ => ?_
  exact msgsndOrSay_fitting ⟨codeFits, shared_fits _⟩ _

theorem MsgQ.Built.fits {m : MsgQ} (built : m.Built) : m.Fits := by
  obtain ⟨f, message, cmdNum, sends⟩ := built.sends
  have fitting : (f.run cmdNum).Only Op.SendsFitting := by
    simp only [messageFuncs, List.mem_cons, List.not_mem_nil, or_false] at message
    rcases message with rfl | rfl | rfl | rfl
    · exact ioevt_fitting cmdNum
    · exact call_fitting cmdNum
    · exact syslogConf_fitting cmdNum
    · exact hideFeatureProc_fitting cmdNum
  exact fitting.performs sends

end Fits

/-! ## The hop -/

/-- A message, the addresses of the structure in the handler and in `cmd_send`,
and what the two stacks hold around it. -/
structure Hop where
  message : MsgQ
  sender : Nat
  senderStack : Nat → UInt8
  receiver : Nat
  receiverStack : Nat → UInt8

namespace Hop

/-- `msgsnd(gMsgid, &msgQ_obj, sizeof(msgQ_t), 0)` -/
def msgsnd (h : Hop) : Option Message × Memory :=
  ByteQueue.msgsnd h.sender sizeofMsgQ ⟨place h.sender h.message.bytes h.senderStack, []⟩

/-- `msgrcv(gMsgid, &msgQ_obj, sizeof(msgQ_t), 0, IPC_NOWAIT)`, after `memset`. -/
def msgrcv (msg : Message) (h : Hop) : Int × Memory :=
  ByteQueue.msgrcv h.receiver sizeofMsgQ msg
    ⟨place h.receiver (List.replicate sizeofMsgQ 0) h.receiverStack, []⟩

def TypePositive (h : Hop) : Prop := 0 < long (h.message.bytes.take longSize)

/-- `cmd_send` accepts the message and has the bytes of the handler. -/
def ReadBack (h : Hop) : Prop :=
  ∃ msg, h.msgsnd.1 = some msg ∧ (h.msgrcv msg).1 = sizeofMsgQ ∧
    view (h.msgrcv msg).2.bytes h.receiver sizeofMsgQ = h.message.bytes

def SendInside (h : Hop) : Prop := h.msgsnd.2.Inside h.sender sizeofMsgQ

def ReceiveInside (h : Hop) : Prop :=
  ∀ msg, h.msgsnd.1 = some msg → (h.msgrcv msg).2.Inside h.receiver sizeofMsgQ

structure Faithful (h : Hop) : Prop where
  typePositive : h.TypePositive
  readBack : h.ReadBack
  sendInside : h.SendInside
  receiveInside : h.ReceiveInside

/-- The handler's structure is at the address it passes. -/
theorem sender_view (h : Hop) :
    view (place h.sender h.message.bytes h.senderStack) h.sender sizeofMsgQ = h.message.bytes := by
  rw [← h.message.bytes_length]
  exact view_place _ _ _

theorem sender_type (h : Hop) :
    view (place h.sender h.message.bytes h.senderStack) h.sender longSize =
      h.message.bytes.take longSize := by
  rw [← view_take _ _ (by decide : longSize ≤ sizeofMsgQ), h.sender_view]

variable {h : Hop}

/-- The message that is queued. -/
theorem sends (positive : h.TypePositive) :
    ∃ msg, h.msgsnd.1 = some msg ∧ msg.body.length = sizeofMsgQ := by
  rw [TypePositive, ← h.sender_type] at positive
  exact ⟨_, congrArg Prod.fst (msgsnd_sends positive), view_length _ _ _⟩

theorem readBack (positive : h.TypePositive) : h.ReadBack := by
  obtain ⟨msg, sent, -⟩ := sends positive
  obtain ⟨size, same⟩ : (h.msgrcv msg).1 = sizeofMsgQ ∧
      view (h.msgrcv msg).2.bytes h.receiver _ = view _ h.sender _ := msgrcv_msgsnd sent
  refine ⟨msg, sent, size, ?_⟩
  have whole : sizeofMsgQ ≤ longSize + sizeofMsgQ := by omega
  have front := congrArg (List.take sizeofMsgQ) same
  rw [view_take _ _ whole, view_take _ _ whole, h.sender_view] at front
  exact front

/-- The type is taken from the structure and not counted by its size. -/
theorem sends_outside (positive : h.TypePositive) : ¬ h.SendInside := by
  rw [TypePositive, ← h.sender_type] at positive
  intro inside
  have room := (msgsnd_inside_iff rfl (by decide) positive).mp inside
  exact absurd room (by decide)

theorem receives_outside (positive : h.TypePositive) : ¬ h.ReceiveInside := by
  obtain ⟨msg, sent, size⟩ := sends positive
  intro inside
  have filled : 0 < msg.body.length := by
    rw [size]
    decide
  have room := (msgrcv_inside_iff rfl filled (Nat.le_of_eq size)).mp (inside msg sent)
  rw [size] at room
  exact absurd room (by decide)

end Hop

/-- Every command name has its first seven characters below 128. -/
theorem command_word : ∀ name ∈ gCmdLib.map CmdEntry.cmdName,
    0 < word ((charField maxCmdCode name).take 7) ∧
      word ((charField maxCmdCode name).take 7) < 2 ^ 55 := by
  decide

theorem Hop.typePositive {h : Hop}
    (command : h.message.cmdObj.cmdCode ∈ gCmdLib.map CmdEntry.cmdName) : h.TypePositive := by
  obtain ⟨positive, small⟩ := command_word _ command
  have size := charField_length maxCmdCode h.message.cmdObj.cmdCode
  have front : h.message.bytes.take longSize =
      UInt8.ofNat (h.message.clientNum % 256).toNat ::
        (charField maxCmdCode h.message.cmdObj.cmdCode).take 7 := by
    rw [MsgQ.bytes, CmdObj.bytes, longSize, List.take_succ_cons, List.take_append_of_le_length]
    rw [size]
    decide
  have low := (UInt8.ofNat (h.message.clientNum % 256).toNat).toNat_lt
  have clear : word (h.message.bytes.take longSize) < 2 ^ 63 := by
    rw [front, word]
    omega
  rw [TypePositive, long_eq clear, front, word]
  omega

/-- The types are positive and the bytes arrive, but both calls leave their
structures. -/
theorem queue_hop_overruns (h : Hop) (built : h.message.Built) :
    ¬ h.Faithful ∧ h.TypePositive ∧ h.ReadBack ∧ ¬ h.SendInside ∧ ¬ h.ReceiveInside := by
  have positive := Hop.typePositive built.command
  have outside := Hop.sends_outside positive
  refine ⟨?_, positive, Hop.readBack positive, outside, Hop.receives_outside positive⟩
  intro faithful
  exact outside faithful.sendInside

/-- `call 0 1000` between two empty stacks. -/
def callHop : Hop where
  message := ⟨0, ⟨"call".toList, .shared "1000".toList⟩⟩
  sender := 100
  senderStack := fun _ => 0
  receiver := 300
  receiverStack := fun _ => 0

theorem callHop_built : callHop.message.Built := by
  have sends : (AutoTest.call 3).Sends callHop.message := by
    refine .inr ⟨2, ?_⟩
    refine .inr ⟨"0".toList, ?_⟩
    refine .inr ⟨1, ?_⟩
    refine .inr ⟨"call".toList, ?_⟩
    refine .inr ⟨"1000".toList, ?_⟩
    exact .inl rfl
  exact ⟨⟨.call, by decide, 3, sends⟩, by decide, by decide⟩

theorem queue_hop_call : ¬ callHop.Faithful ∧ callHop.TypePositive ∧ callHop.ReadBack ∧
    ¬ callHop.SendInside ∧ ¬ callHop.ReceiveInside :=
  queue_hop_overruns callHop callHop_built

/-- The structures of `call 0 1000` do not hold what the calls access. -/
theorem callHop_unfaithful : ¬ ∀ h : Hop, h.message.Built → h.Faithful := by
  intro faithful
  have positive := Hop.typePositive callHop_built.command
  exact Hop.sends_outside positive (faithful callHop callHop_built).sendInside

end AutoTest
