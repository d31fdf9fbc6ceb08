import AutoTest.Handlers

/-!
# Which tokens a handler reads

All lines share one token array. A handler is tidy when it reads only entries
of its own line, and reads none after an operation that may hand the array to
another line.

* `Op.retokenises`: a nested line, or a split through the same buffer.
* `Op.blocks`: a call in which other threads can run.
* `Func.run_tidy`: every handler is tidy about nested lines when its line
  supplies the tokens it takes for granted, and all but one branch of `stop`
  are tidy about other threads too.
-/

namespace AutoTest

open CString Program Cmd

def Op.retokenises : Op → Bool
  | .call _ => true
  | .getTokens _ _ => true
  | _ => false

def Op.blocks : Op → Bool
  | .sleep _ => true
  | .usleep => true
  | .msgsnd _ => true
  | .pthreadJoin _ => true
  | _ => false

/-- After it the array may hold another line, where `threads` tells whether
other threads process lines too. -/
def Op.spoils (threads : Bool) (o : Op) : Bool := o.retokenises || (threads && o.blocks)

/-- Neither an access to the token array or its buffer nor a nested line. -/
def Op.Silent : Op → Prop
  | .setParams _ => False
  | .paramNum => False
  | .param _ => False
  | .getTokens _ _ => False
  | .call _ => False
  | _ => True

/-- What a handler runs among: whether other threads process lines, the files
it can open, and the lines it may pass on. -/
structure Setting where
  threads : Bool
  files : Text → Option Text
  line : Text → Prop

/-- No read past the tokens `argv`, and no access once they are not `fresh`. -/
def Op.Within (c : Setting) (argv : List Text) (fresh : Bool) : Op → Prop
  | .setParams _ => False
  | .paramNum => fresh = true
  | .param i => fresh = true ∧ i < argv.length
  | .getTokens _ _ => fresh = true
  | .call line => c.line line
  | _ => True

/-- The lines a handler of such a line passes on may be passed on too. -/
structure Setting.Closed (c : Setting) : Prop where
  files : ∀ name file, c.files name = some file → ∀ read ∈ scriptReads file, ∀ line,
    scriptLine read = some line → c.line line
  keys : ∀ client index, c.line (randomKeyLine client (gKeyLib index).keyName)

/-- The answers of the files, and of the token array while it holds `argv`. -/
def Op.Answers (c : Setting) (argv : List Text) : (o : Op) → o.Res → Prop
  | .paramNum, r => r = argv.length - 1
  | .param i, r => argv[i]? = some r
  | .fopen name, r => r = c.files name
  | _, _ => True

/-- Not a write to a thread handle or a script table, nor an operation on a thread. -/
def Op.Calm : Op → Prop
  | .setSendThreadID _ => False
  | .setRecThreadID _ => False
  | .setScriptThreadID _ _ => False
  | .pthreadCreate _ => False
  | .pthreadKill _ => False
  | .pthreadJoin _ => False
  | .pthreadExit => False
  | .gScriptParamInit => False
  | .setScriptName _ _ => False
  | .setCountOfScriptRun _ _ => False
  | .mallocScript _ => False
  | .copyScript _ _ => False
  | .freeScript _ => False
  | _ => True

def Op.Plain (o : Op) : Prop := o.Silent ∧ o.Calm

variable {α β : Type} {c : Setting} {argv : List Text} {fresh : Bool}

abbrev Cmd.Silent (p : Cmd α) : Prop := p.Only Op.Silent

/-- Only own tokens are read, and none after an operation that spoils them. -/
def Cmd.Tidy (c : Setting) (argv : List Text) : Bool → Cmd α → Prop
  | _, .pure _ => True
  | fresh, .op o k => o.Within c argv fresh ∧
      ∀ r, o.Answers c argv r → Cmd.Tidy c argv (fresh && !o.spoils c.threads) (k r)

/-! ## Rules -/

theorem Op.spoils_false {o : Op} (line : o.retokenises = false) (runs : o.blocks = false)
    (threads : Bool) : o.spoils threads = false := by
  simp [spoils, line, runs]

theorem Op.Silent.line {o : Op} (h : o.Silent) : o.retokenises = false := by
  cases o <;> first | rfl | exact h.elim

/-- What can stand before further reads. -/
def Op.Keeps (o : Op) : Prop := o.Silent ∧ o.blocks = false

theorem Op.fault_keeps (f : Fault) : (Op.fault f).Keeps := ⟨trivial, rfl⟩

theorem Op.Silent.within {o : Op} (h : o.Silent) : o.Within c argv fresh := by
  cases o <;> trivial

namespace Cmd.Tidy

theorem of_silent {p : Cmd α} (h : p.Silent) : p.Tidy c argv fresh := by
  induction p generalizing fresh with
  | pure a => trivial
  | op o k ih => exact ⟨h.1.within, fun r _ => ih r (h.2 r)⟩

/-- Tokens may be read on while nothing has spoilt them. -/
theorem step {o : Op} {k : o.Res → Cmd α} (keeps : o.Keeps)
    (h : ∀ r, (k r).Tidy c argv fresh) : Cmd.Tidy c argv fresh (.op o k) := by
  refine ⟨keeps.1.within, ?_⟩
  intro r _
  rw [Op.spoils_false keeps.1.line keeps.2, Bool.not_false, Bool.and_true]
  exact h r

theorem stepAlone (alone : c.threads = false) {o : Op} {k : o.Res → Cmd α} (silent : o.Silent)
    (h : ∀ r, (k r).Tidy c argv fresh) : Cmd.Tidy c argv fresh (.op o k) := by
  refine ⟨silent.within, ?_⟩
  intro r _
  have keeps : o.spoils c.threads = false := by simp [Op.spoils, alone, silent.line]
  rw [keeps, Bool.not_false, Bool.and_true]
  exact h r

/-- A part that neither reads nor spoils the tokens. -/
theorem bind {p : Cmd α} {f : α → Cmd β} (hp : p.Only Op.Keeps)
    (hf : ∀ a, (f a).Tidy c argv fresh) : (p >>= f).Tidy c argv fresh := by
  induction p with
  | pure a => exact hf a
  | op o k ih => exact step hp.1 fun r => ih r (hp.2 r)

/-- A part after which no token is read. -/
theorem andThen {p : Cmd α} {f : α → Cmd β} (hp : p.Tidy c argv fresh)
    (hf : ∀ a fresh, (f a).Tidy c argv fresh) : (p >>= f).Tidy c argv fresh := by
  induction p generalizing fresh with
  | pure a => exact hf a fresh
  | op o k ih => exact ⟨hp.1, fun r hr => ih r (hp.2 r hr)⟩

theorem each {as : List α} {f : α → Cmd Unit} (hf : ∀ a ∈ as, ∀ fresh, (f a).Tidy c argv fresh) :
    (Cmd.each as f).Tidy c argv fresh := by
  induction as generalizing fresh with
  | nil => trivial
  | cons a as ih =>
    refine (hf a (by simp) fresh).andThen fun _ fresh => ih fun b hb => ?_
    exact hf b (by simp [hb])

theorem ite {q : Prop} [Decidable q] {p p' : Cmd α} (hp : q → p.Tidy c argv fresh)
    (hq : ¬ q → p'.Tidy c argv fresh) : Cmd.Tidy c argv fresh (if q then p else p') := by
  by_cases h : q
  · simpa only [h, ↓reduceIte] using hp h
  · simpa only [h, ↓reduceIte] using hq h

theorem paramNum {f : Int → Cmd α} (h : (f (argv.length - 1)).Tidy c argv true) :
    (Cmd.paramNum >>= f).Tidy c argv true := by
  refine ⟨rfl, ?_⟩
  intro r hr
  obtain rfl : r = argv.length - 1 := hr
  rw [Op.spoils_false rfl rfl]
  exact h

theorem param {i : Nat} {f : Text → Cmd α} (hi : i < argv.length)
    (h : (f argv[i]).Tidy c argv true) : (Cmd.param i >>= f).Tidy c argv true := by
  refine ⟨⟨rfl, hi⟩, ?_⟩
  intro r hr
  obtain rfl : argv[i] = r := by
    have : argv[i]? = some r := hr
    simpa [List.getElem?_eq_getElem hi] using this
  rw [Op.spoils_false rfl rfl]
  exact h

theorem fopen {name : Text} {f : Option Text → Cmd α} (h : (f (c.files name)).Tidy c argv fresh) :
    (Cmd.fopen name >>= f).Tidy c argv fresh := by
  refine ⟨trivial, ?_⟩
  intro r hr
  obtain rfl : r = c.files name := hr
  rw [Op.spoils_false rfl rfl, Bool.not_false, Bool.and_true]
  exact h

end Cmd.Tidy

/-! ## Parts without tokens -/

section Plain

abbrev Cmd.Plain (p : Cmd α) : Prop := p.Only Op.Plain

theorem Cmd.Plain.silent {p : Cmd α} (h : p.Plain) : p.Silent := h.mono fun _ ho => ho.1

theorem each_only {P : Op → Prop} {as : List α} {f : α → Cmd Unit} (hf : ∀ a, (f a).Only P) :
    (Cmd.each as f).Only P := by
  induction as with
  | nil => trivial
  | cons a as ih => exact (hf a).bind fun _ => ih

theorem fault_only {P : Op → Prop} (h : ∀ f, P (.fault f)) (f : Fault) :
    (Cmd.fault f : Cmd α).Only P := ⟨h f, fun r => r.elim⟩

theorem fault_plain (f : Fault) : (Cmd.fault f : Cmd α).Plain :=
  fault_only (fun _ => ⟨trivial, trivial⟩) f

theorem print_plain (t : Text) : (Cmd.print t).Plain := ⟨⟨trivial, trivial⟩, fun _ => trivial⟩

theorem say_plain (s : String) : (say s).Plain := print_plain _

theorem snprintf_only {P : Op → Prop} (h : ∀ f, P (.fault f)) (size : Nat) (fmt : Text) :
    (Cmd.snprintf size fmt).Only P := by
  unfold Cmd.snprintf
  split
  · trivial
  · exact fault_only h _

theorem cmdCode_only {P : Op → Prop} (h : ∀ f, P (.fault f)) (cmdNum : Nat) (typed : Text) :
    (cmdCode cmdNum typed).Only P :=
  .ite (fun _ => snprintf_only h _ _) fun _ => snprintf_only h _ _

theorem sprintf_plain (size : Nat) (t : Text) : (Cmd.sprintf size t).Plain :=
  .ite (fun _ => trivial) fun _ => fault_plain _

theorem wrongParameter_plain (cmdNum : Nat) : (wrongParameter cmdNum).Plain := by
  repeat refine ⟨⟨trivial, trivial⟩, fun _ => ?_⟩
  trivial

theorem showHelp_plain : showHelp.Plain :=
  each_only fun _ => .ite (fun _ => print_plain _) fun _ => trivial

theorem msgsndOrSay_plain (m : MsgQ) (failure : String) : (msgsndOrSay m failure).Plain :=
  ⟨⟨trivial, trivial⟩, fun _ => .ite (fun _ => say_plain _) fun _ => trivial⟩

theorem lookCalls_plain (j : Nat) : (lookCalls j).Plain := by
  refine ⟨⟨trivial, trivial⟩, fun _ => each_only fun i => ?_⟩
  exact .bind_op ⟨trivial, trivial⟩ fun _ => .bind_op ⟨trivial, trivial⟩ fun _ => print_plain _

theorem lookScript_plain (index : Nat) : (lookScript index).Plain := by
  refine ⟨⟨trivial, trivial⟩, fun tested => .ite (fun _ => ?_) fun _ => trivial⟩
  exact .bind_op ⟨trivial, trivial⟩ fun _ => .bind_op ⟨trivial, trivial⟩ fun _ => print_plain _

theorem look_plain (cmdNum : Nat) : (look cmdNum).Plain :=
  (each_only lookCalls_plain).bind fun _ => each_only lookScript_plain

end Plain

/-! ## The handlers -/

section Handlers

variable (cmdNum : Nat)

theorem wrongParameter_tidy : (wrongParameter cmdNum).Tidy c argv true :=
  .of_silent (wrongParameter_plain cmdNum).silent

theorem say_tidy (t : String) : (say t).Tidy c argv true := .of_silent (say_plain t).silent

theorem autoConfig_tidy (closed : c.Closed) : (autoConfig cmdNum).Tidy c argv true := by
  have lines {name file read : Text} (opened : c.files name = some file)
      (hread : read ∈ scriptReads file) (fresh : Bool) : (autoConfigLine read).Tidy c argv fresh := by
    unfold autoConfigLine
    refine .ite (fun _ => trivial) fun _ => ?_
    cases hline : scriptLine read with
    | none => exact .of_silent (say_plain _).silent
    | some line => exact ⟨closed.files name file opened read hread line hline, fun _ _ => trivial⟩
  unfold autoConfig
  refine .paramNum (.ite (fun _ => wrongParameter_tidy cmdNum) fun h => ?_)
  refine .param (by omega) (.bind (snprintf_only Op.fault_keeps _ _) fun name => ?_)
  refine .step ⟨trivial, rfl⟩ fun _ => .fopen ?_
  cases opened : c.files name with
  | none => trivial
  | some file =>
    refine .andThen (.each fun read hread fresh => lines opened hread fresh) fun _ fresh => ?_
    exact .of_silent ⟨trivial, fun _ => trivial⟩

theorem addClient_tidy : (addClient cmdNum).Tidy c argv true := by
  unfold addClient
  refine .paramNum (.ite (fun _ => wrongParameter_tidy cmdNum) fun h => ?_)
  refine .param (by omega) (.param (by omega) (.of_silent ?_))
  refine ⟨trivial, fun _ => ⟨trivial, fun stat => ⟨trivial, fun _ => ?_⟩⟩⟩
  refine .ite (fun _ => (say_plain _).silent) fun _ => ⟨trivial, fun done => ?_⟩
  refine .ite (fun _ => (print_plain _).silent) fun _ => ?_
  repeat refine ⟨trivial, fun _ => ?_⟩
  trivial

theorem delClient_tidy (supplied : 2 ≤ argv.length) : (delClient cmdNum).Tidy c argv true := by
  unfold delClient
  refine .param (by omega) (.paramNum (.ite (fun _ => wrongParameter_tidy cmdNum) fun _ => ?_))
  refine .of_silent ⟨trivial, fun _ => ⟨trivial, fun stat => ⟨trivial, fun _ => ?_⟩⟩⟩
  refine .ite (fun _ => (print_plain _).silent) fun _ => ?_
  repeat refine ⟨trivial, fun _ => ?_⟩
  trivial

theorem changeClientIpAddr_tidy : (changeClientIpAddr cmdNum).Tidy c argv true := by
  unfold changeClientIpAddr
  refine .paramNum (.ite (fun _ => wrongParameter_tidy cmdNum) fun h => ?_)
  refine .param (by omega) (.param (by omega) (.of_silent ?_))
  refine ⟨trivial, fun _ => ⟨trivial, fun stat => ⟨trivial, fun _ => ?_⟩⟩⟩
  refine .ite (fun _ => (say_plain _).silent) fun _ => ⟨trivial, fun done => ?_⟩
  refine .ite (fun _ => (say_plain _).silent) fun _ => ?_
  repeat refine ⟨trivial, fun _ => ?_⟩
  trivial

theorem showClient_tidy : (showClient cmdNum).Tidy c argv true := by
  have clients (index : Nat) : (showClientEntry index).Plain := by
    refine ⟨⟨trivial, trivial⟩, fun _ =>
      ⟨⟨trivial, trivial⟩, fun _ => ⟨⟨trivial, trivial⟩, fun stat => ?_⟩⟩⟩
    refine ⟨⟨trivial, trivial⟩, fun _ => .ite (fun _ => say_plain _) fun _ => ?_⟩
    exact ⟨⟨trivial, trivial⟩, fun _ => print_plain _⟩
  have scripts (index : Nat) : (showScriptEntry index).Plain := by
    refine ⟨⟨trivial, trivial⟩, fun _ => ⟨⟨trivial, trivial⟩, fun id => ?_⟩⟩
    exact .ite (fun _ => say_plain _) fun _ => ⟨⟨trivial, trivial⟩, fun _ => print_plain _⟩
  have shown : Cmd.Silent (do
      printConfFileName
      say "client Parameter:\n"
      Cmd.each (List.range 10) showClientEntry
      say "script Parameter:\n"
      Cmd.each (List.range 10) showScriptEntry) := by
    refine ⟨trivial, fun _ => (say_plain _).silent.bind fun _ => ?_⟩
    refine (Plain.silent (each_only clients)).bind fun _ => (say_plain _).silent.bind fun _ => ?_
    exact Plain.silent (each_only scripts)
  unfold showClient
  refine .paramNum (.of_silent (.ite (fun _ => ?_) fun _ => shown))
  exact (say_plain _).silent.bind fun _ => (print_plain _).silent.bind fun _ => shown

section Messages

theorem sendId_tidy {f : Tid → Cmd α} (h : ∀ id, (f id).Tidy c argv true) :
    (getSendThreadID >>= f).Tidy c argv true :=
  .step ⟨trivial, rfl⟩ h

theorem copy_tidy {size : Nat} {fmt : Text} {f : Text → Cmd α} (h : ∀ t, (f t).Tidy c argv true) :
    (Cmd.snprintf size fmt >>= f).Tidy c argv true :=
  .bind (snprintf_only Op.fault_keeps size fmt) h

theorem cmdCode_tidy {typed : Text} {f : Text → Cmd α} (h : ∀ t, (f t).Tidy c argv true) :
    (cmdCode cmdNum typed >>= f).Tidy c argv true :=
  .bind (cmdCode_only Op.fault_keeps cmdNum typed) h

theorem msgsnd_tidy (m : MsgQ) (failure : String) : (msgsndOrSay m failure).Tidy c argv true :=
  .of_silent (msgsndOrSay_plain m failure).silent

theorem ioevt_tidy : (ioevt cmdNum).Tidy c argv true := by
  unfold ioevt
  refine .paramNum (.ite (fun _ => wrongParameter_tidy cmdNum) fun h => ?_)
  have hlen : argv.length = 4 := by omega
  refine .param (by omega) (.ite (fun _ => wrongParameter_tidy cmdNum) fun _ => ?_)
  refine .param (by omega) (.ite (fun _ => say_tidy _) fun _ => sendId_tidy fun id => ?_)
  refine .ite (fun _ => say_tidy _) fun _ => .param (by omega) (cmdCode_tidy cmdNum fun code => ?_)
  refine .param (by omega) (.ite (fun _ => trivial) fun _ => .param (by omega) ?_)
  refine copy_tidy fun action => .param (by omega) (copy_tidy fun keys => ?_)
  refine ⟨rfl, fun pieces _ => .of_silent (.ite (fun _ => (fault_plain _).silent) fun _ => ?_)⟩
  cases keyCodes pieces with
  | error k => exact (print_plain _).silent
  | ok codes => exact (msgsndOrSay_plain _ _).silent

theorem call_tidy : (AutoTest.call cmdNum).Tidy c argv true := by
  unfold AutoTest.call
  refine .paramNum (.ite (fun _ => wrongParameter_tidy cmdNum) fun h => ?_)
  refine .param (by omega) (.ite (fun _ => say_tidy _) fun _ => sendId_tidy fun id => ?_)
  refine .ite (fun _ => say_tidy _) fun _ => .param (by omega) (copy_tidy fun code => ?_)
  exact .param (by omega) (copy_tidy fun shared => msgsnd_tidy _ _)

theorem syslogConf_tidy : (syslogConf cmdNum).Tidy c argv true := by
  unfold syslogConf
  refine .paramNum (.ite (fun _ => wrongParameter_tidy cmdNum) fun h => ?_)
  refine .param (by omega) (.ite (fun _ => say_tidy _) fun _ => sendId_tidy fun id => ?_)
  refine .ite (fun _ => say_tidy _) fun _ => .param (by omega) (cmdCode_tidy cmdNum fun code => ?_)
  refine .param (by omega) (.ite (fun three => .param (by omega) (.param (by omega) ?_)) fun _ =>
    .param (by omega) ?_)
  all_goals exact .of_silent ⟨trivial, fun port => (msgsndOrSay_plain _ _).silent⟩

theorem hideFeatureProc_tidy : (hideFeatureProc cmdNum).Tidy c argv true := by
  unfold hideFeatureProc
  refine .paramNum (.ite (fun _ => wrongParameter_tidy cmdNum) fun h => ?_)
  refine .param (by omega) (.ite (fun _ => say_tidy _) fun _ => sendId_tidy fun id => ?_)
  refine .ite (fun _ => say_tidy _) fun _ => .param (by omega) (cmdCode_tidy cmdNum fun code => ?_)
  exact .param (by omega) (.param (by omega) (msgsnd_tidy _ _))

end Messages

theorem delay_tidy : (delay cmdNum).Tidy c argv true := by
  unfold delay
  refine .paramNum (.ite (fun _ => wrongParameter_tidy cmdNum) fun h => .param (by omega) ?_)
  exact .of_silent (.ite (fun _ => ⟨trivial, fun _ => trivial⟩) fun _ => trivial)

theorem randomTime_tidy : (randomTime cmdNum).Tidy c argv true := by
  unfold randomTime
  refine .paramNum (.ite (fun _ => wrongParameter_tidy cmdNum) fun h => ?_)
  refine .param (by omega)
    (.param (by omega) (.ite (fun _ => wrongParameter_tidy cmdNum) fun _ => ?_))
  refine .of_silent (.ite (fun _ => trivial) fun _ => ⟨trivial, fun draws => ?_⟩)
  cases draws with
  | nil => exact (fault_plain _).silent
  | cons r rs => exact .ite (fun _ => ⟨trivial, fun _ => trivial⟩) fun _ => trivial

theorem drawKey_keeps (randomKeyNum : Int) (draws : List Nat) :
    (drawKey randomKeyNum draws).Only Op.Keeps := by
  have fault : (Cmd.fault .bounds : Cmd Nat).Only Op.Keeps := fault_only Op.fault_keeps _
  induction draws generalizing randomKeyNum with
  | nil =>
    exact .ite (fun _ => fault) fun _ => .ite (fun _ => trivial) fun _ => fault_only Op.fault_keeps _
  | cons r rs ih => exact .ite (fun _ => fault) fun _ => .ite (fun _ => trivial) fun _ => ih _

theorem sendRandomKey_tidy (closed : c.Closed) (supplied : 2 ≤ argv.length) (drawn : Int)
    (draws : List Nat) : (sendRandomKey drawn draws).Tidy c argv true := by
  unfold sendRandomKey
  refine .ite (fun _ => say_tidy _) fun _ => .bind (drawKey_keeps drawn draws) fun index => ?_
  refine .param (by omega) ?_
  unfold Cmd.sprintf
  split
  · exact ⟨closed.keys _ index, fun _ _ => .of_silent ⟨trivial, fun _ => trivial⟩⟩
  · exact .of_silent ⟨trivial, fun r => r.elim⟩

theorem randomKey_tidy (closed : c.Closed) : (randomKey cmdNum).Tidy c argv true := by
  unfold randomKey
  refine .paramNum (.ite (fun _ => wrongParameter_tidy cmdNum) fun h => ?_)
  refine .bind (p := rand) ⟨⟨trivial, rfl⟩, fun _ => trivial⟩ fun draws => ?_
  cases draws with
  | nil => exact .of_silent (fault_plain _).silent
  | cons r rs =>
    dsimp only
    generalize getRandValue 0 maxKeyNum r = drawn
    exact sendRandomKey_tidy closed (by omega) drawn rs

section Threads

theorem createRec_silent : createRec.Silent := by
  refine ⟨trivial, ?_⟩
  intro id
  cases id with
  | none => exact (say_plain _).silent
  | some id => exact ⟨trivial, fun _ => (say_plain _).silent⟩

theorem startAllRec_silent (recId : Tid) : (startAllRec recId).Silent :=
  .ite (fun _ => createRec_silent) fun _ => (say_plain _).silent

theorem stopSend_silent (sendId : Tid) : (stopSend sendId).Silent := by
  refine .ite (fun _ => ?_) fun _ => trivial
  repeat refine ⟨trivial, fun _ => ?_⟩
  trivial

theorem stopRec_silent (recId : Tid) : (stopRec recId).Silent := by
  refine .ite (fun _ => ?_) fun _ => trivial
  repeat refine ⟨trivial, fun _ => ?_⟩
  trivial

theorem stopScript_silent (index : Nat) : (stopScript index).Silent := by
  refine ⟨trivial, fun id => .ite (fun _ => trivial) fun _ => ?_⟩
  repeat refine ⟨trivial, fun _ => ?_⟩
  trivial

theorem start_tidy : (start cmdNum).Tidy c argv true := by
  unfold start
  refine .paramNum (.ite (fun _ => wrongParameter_tidy cmdNum) fun h => ?_)
  refine .step ⟨trivial, rfl⟩ fun sendId => ?_
  refine .step ⟨trivial, rfl⟩ fun recId => .param (by omega) ?_
  refine .ite (fun _ => .of_silent ?_) fun _ => ?_
  · exact .ite (fun _ => (say_plain _).silent) fun _ => createRec_silent
  refine .step ⟨trivial, rfl⟩ fun file => .ite (fun _ => say_tidy _) fun _ => ?_
  refine .step ⟨trivial, rfl⟩ fun key => .ite (fun _ => say_tidy _) fun _ => ?_
  refine .step ⟨trivial, rfl⟩ fun id => .ite (fun _ => say_tidy _) fun _ => ?_
  refine .step ⟨trivial, rfl⟩ fun _ => .param (by omega) (.of_silent ?_)
  refine .ite (fun _ => .ite (fun _ => ⟨trivial, fun id => ?_⟩) fun _ => ?_) fun _ => ?_
  · cases id with
    | none => exact (say_plain _).silent
    | some id => exact ⟨trivial, fun _ => (say_plain _).silent.bind fun _ => startAllRec_silent recId⟩
  · exact (say_plain _).silent.bind fun _ => startAllRec_silent recId
  · refine .ite (fun _ => .ite (fun _ => (say_plain _).silent) fun _ => ⟨trivial, fun id => ?_⟩)
      fun _ => (wrongParameter_plain _).silent
    cases id with
    | none => exact (say_plain _).silent
    | some id => exact ⟨trivial, fun _ => (say_plain _).silent⟩

theorem quitSend_silent (sendId : Tid) : (quitSend sendId).Silent := by
  refine .ite (fun _ => ?_) fun _ => trivial
  repeat refine ⟨trivial, fun _ => ?_⟩
  trivial

theorem quitRec_silent (recId : Tid) : (quitRec recId).Silent := by
  refine .ite (fun _ => ?_) fun _ => trivial
  repeat refine ⟨trivial, fun _ => ?_⟩
  trivial

theorem noteClients_plain (j : Nat) (is : List Nat) (ret : Int) : (noteClients j is ret).Plain := by
  induction is generalizing ret with
  | nil => trivial
  | cons i is ih =>
    apply Prog.Only.bind_op ⟨trivial, trivial⟩
    intro tested
    apply Prog.Only.bind_op ⟨trivial, trivial⟩
    intro count
    generalize callReport i tested count = report
    refine (sprintf_plain _ report).bind fun tmp => ⟨⟨trivial, trivial⟩, fun ret => ?_⟩
    exact .ite (fun _ => (say_plain _).bind fun _ => ih ret) fun _ => ih ret

theorem noteCalls_plain (j : Nat) : (noteCalls j).Plain := by
  unfold noteCalls
  generalize List.range 10 = clients
  exact ⟨⟨trivial, trivial⟩, fun ret => noteClients_plain j clients ret⟩

theorem noteScript_plain (index : Nat) (tested count : Int) :
    (noteScript index tested count).Plain := by
  unfold noteScript
  refine .bind_op ⟨trivial, trivial⟩ fun name => ?_
  generalize scriptReport name tested count = report
  exact (sprintf_plain _ report).bind fun tmp => ⟨⟨trivial, trivial⟩, fun _ => trivial⟩

theorem noteScripts_plain (is : List Nat) (ret : Int) : (noteScripts is ret).Plain := by
  induction is generalizing ret with
  | nil => trivial
  | cons i is ih =>
    refine ⟨⟨trivial, trivial⟩, fun id => .ite (fun _ => ih ret) fun _ => ?_⟩
    refine .bind_op ⟨trivial, trivial⟩ fun tested => .bind_op ⟨trivial, trivial⟩ fun count => ?_
    exact (noteScript_plain i tested count).bind ih

theorem quitEnd_plain (ret : Int) : (quitEnd ret).Plain :=
  ⟨⟨trivial, trivial⟩, fun _ => .ite (fun _ => say_plain _) fun _ => say_plain _⟩

theorem quitNote_plain : quitNote.Plain := by
  unfold quitNote
  generalize List.range 10 = slots
  refine ⟨⟨trivial, trivial⟩, fun opened => .ite (fun _ => ?_) fun _ => fault_plain _⟩
  refine ⟨⟨trivial, trivial⟩, fun tmp => ⟨⟨trivial, trivial⟩, fun _ => ?_⟩⟩
  refine (noteCalls_plain 0).bind fun _ => (noteCalls_plain 1).bind fun ret => ?_
  exact (noteScripts_plain slots ret).bind quitEnd_plain

theorem quit_silent : (quit cmdNum).Silent := by
  refine ⟨trivial, fun sendId => ⟨trivial, fun recId => ?_⟩⟩
  exact (quitSend_silent sendId).bind fun _ => (quitRec_silent recId).bind fun _ =>
    quitNote_plain.silent

theorem runScript_tidy : (runScript cmdNum).Tidy c argv true := by
  unfold runScript
  refine sendId_tidy fun id => .ite (fun _ => say_tidy _) fun _ => .paramNum ?_
  refine .ite (fun _ => wrongParameter_tidy cmdNum) fun h => .param (by omega) ?_
  apply Tidy.ite (fun _ => wrongParameter_tidy cmdNum)
  intro _
  refine .step ⟨trivial, rfl⟩ fun id => .ite (fun _ => say_tidy _) fun _ => ?_
  refine .param (by omega) (copy_tidy fun name =>
    .of_silent ⟨trivial, fun _ => ⟨trivial, fun id => ?_⟩⟩)
  cases id with
  | none => exact (say_plain _).silent
  | some id => exact ⟨trivial, fun _ => trivial⟩

/-- A mode of `stop` that takes no slot number. -/
def plainModes : List Text := [paramAll, paramTest, paramRec]

/-- The line has the tokens that its handler reads without counting them. -/
def Func.Supplied (argv : List Text) : Func → Prop
  | .delClient => 2 ≤ argv.length
  | .stop => argv.length = 2 → ∃ mode ∈ plainModes, argv[1]? = some mode
  | _ => True

/-- The handler reads a token again after it has waited for a thread. -/
def Func.Rereads (argv : List Text) : Func → Prop
  | .stop => argv.length = 3 ∧ argv[2]? = some paramSc ∧ ∀ mode ∈ plainModes, argv[1]? ≠ some mode
  | _ => False

instance Func.Supplied.decidable (argv : List Text) : (f : Func) → Decidable (f.Supplied argv)
  | .delClient => inferInstanceAs (Decidable (2 ≤ argv.length))
  | .stop => inferInstanceAs (Decidable (argv.length = 2 → ∃ mode ∈ plainModes, argv[1]? = some mode))
  | .showHelp | .autoConfig | .addClient | .call | .changeClientIpAddr | .delay |
    .ioevt | .look | .quit
  | .runScript | .randomTime | .randomKey | .showClient | .start | .syslogConf | .hideFeatureProc =>
    .isTrue trivial

instance Func.Rereads.decidable (argv : List Text) : (f : Func) → Decidable (f.Rereads argv)
  | .stop => inferInstanceAs (Decidable (argv.length = 3 ∧ argv[2]? = some paramSc ∧
      ∀ mode ∈ plainModes, argv[1]? ≠ some mode))
  | .delClient | .showHelp | .autoConfig | .addClient | .call | .changeClientIpAddr |
    .delay | .ioevt | .look
  | .quit | .runScript | .randomTime | .randomKey | .showClient | .start | .syslogConf |
    .hideFeatureProc =>
    .isFalse id

theorem stop_tidy (supplied : Func.stop.Supplied argv)
    (once : c.threads = true → ¬ Func.stop.Rereads argv) : (stop cmdNum).Tidy c argv true := by
  unfold stop
  refine .step ⟨trivial, rfl⟩ fun sendId => .step ⟨trivial, rfl⟩ fun recId => .paramNum ?_
  refine .ite (fun _ => wrongParameter_tidy cmdNum) fun count => .param (by omega) ?_
  have hmode : argv[1]? = some argv[1] := List.getElem?_eq_getElem _
  refine .ite (fun _ => .of_silent ?_) fun notAll => ?_
  · refine (stopSend_silent sendId).bind fun _ => (stopRec_silent recId).bind fun _ => ?_
    refine (each_only stopScript_silent).bind fun _ => ⟨trivial, fun _ => (say_plain _).silent⟩
  refine .ite (fun _ => .of_silent (stopSend_silent sendId)) fun notTest => ?_
  refine .ite (fun _ => .of_silent (stopRec_silent recId)) fun notRec => ?_
  have other : ∀ mode ∈ plainModes, argv[1]? ≠ some mode := by
    simp [plainModes, hmode, notAll, notTest, notRec]
  have three : argv.length = 3 := by
    by_cases two : argv.length = 2
    · obtain ⟨mode, hmem, hmode⟩ := supplied two
      exact absurd hmode (other mode hmem)
    · omega
  have hlast : argv[2]? = some argv[2] := List.getElem?_eq_getElem _
  refine .param (by omega) (.ite (fun script => ?_) fun _ => wrongParameter_tidy cmdNum)
  have alone : c.threads = false := by
    cases threads : c.threads with
    | false => rfl
    | true => exact absurd ⟨three, hlast.trans (congrArg some script), other⟩ (once threads)
  refine .param (by omega) (.ite (fun _ => say_tidy _) fun _ => .step ⟨trivial, rfl⟩ fun scId => ?_)
  refine .ite (fun _ => trivial) fun _ => .step ⟨trivial, rfl⟩ fun _ => ?_
  refine .stepAlone alone trivial fun _ => .param (by omega) (.step ⟨trivial, rfl⟩ fun _ => ?_)
  exact .param (by omega) (.of_silent (print_plain _).silent)

end Threads

theorem Func.run_tidy (closed : c.Closed) {f : Func} (supplied : f.Supplied argv)
    (once : c.threads = true → ¬ f.Rereads argv) : (f.run cmdNum).Tidy c argv true := by
  cases f with
  | showHelp => exact .of_silent showHelp_plain.silent
  | autoConfig => exact autoConfig_tidy cmdNum closed
  | addClient => exact addClient_tidy cmdNum
  | call => exact call_tidy cmdNum
  | changeClientIpAddr => exact changeClientIpAddr_tidy cmdNum
  | delClient => exact delClient_tidy cmdNum supplied
  | delay => exact delay_tidy cmdNum
  | ioevt => exact ioevt_tidy cmdNum
  | look => exact .of_silent (look_plain cmdNum).silent
  | quit => exact .of_silent (quit_silent cmdNum)
  | runScript => exact runScript_tidy cmdNum
  | randomTime => exact randomTime_tidy cmdNum
  | randomKey => exact randomKey_tidy cmdNum closed
  | showClient => exact showClient_tidy cmdNum
  | start => exact start_tidy cmdNum
  | stop => exact stop_tidy cmdNum supplied once
  | syslogConf => exact syslogConf_tidy cmdNum
  | hideFeatureProc => exact hideFeatureProc_tidy cmdNum

end Handlers

/-- The tokens that `dispatch` and the handler of its line take for granted. -/
def Supplied (argv : List Text) : Prop :=
  ∃ name, argv.head? = some name ∧
    ∀ cmdNum, getCmdCode name = some cmdNum → (cmdEntry cmdNum).func.Supplied argv

instance (argv : List Text) : Decidable (Supplied argv) :=
  inferInstanceAs (Decidable (∃ name ∈ argv.head?, ∀ cmdNum ∈ getCmdCode name,
    (cmdEntry cmdNum).func.Supplied argv))

/-- The line of a handler that reads a token again after it has waited. -/
def Rereads (argv : List Text) : Prop :=
  ∃ name cmdNum, argv.head? = some name ∧ getCmdCode name = some cmdNum ∧
    (cmdEntry cmdNum).func.Rereads argv

instance (argv : List Text) : Decidable (Rereads argv) :=
  decidable_of_iff (∃ name ∈ argv.head?, ∃ cmdNum ∈ getCmdCode name,
    (cmdEntry cmdNum).func.Rereads argv)
    (by simp [Rereads])

theorem dispatch_tidy (closed : c.Closed) {name : Text} (first : argv.head? = some name)
    (supplied : Supplied argv) (once : c.threads = true → ¬ Rereads argv) :
    (dispatch name).Tidy c argv true := by
  obtain ⟨name', first', supplied⟩ := supplied
  obtain rfl : name = name' := by simpa [first] using first'
  unfold dispatch
  cases code : getCmdCode name with
  | none => exact say_tidy _
  | some cmdNum =>
    exact Func.run_tidy cmdNum closed (supplied cmdNum code) fun among rereads =>
      once among ⟨name, cmdNum, first, code, rereads⟩

end AutoTest
