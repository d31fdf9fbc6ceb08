import AutoTest.History
import AutoTest.Process
import AutoTest.RandomKey
import AutoTest.RegistryMap
import AutoTest.Recursion
import AutoTest.Simulation

/-!
# Lines that pass on lines

`autoConfig` hands the lines of a file to `cmd_proc`, where each of them may be
another `autoConfig`, and `randomKey` hands over a line of its own. Nothing
bounds how deep this goes.

* `cmdLines`: `cmd_proc` as programs that call each other.
* `ConfigLine.exec_config`: a configuration file is the sequence of its commands.
* `exec_endless_iff`: it never returns when the lines go down forever.
* `exec_returns`: it returns where no configuration file leads back to itself,
  with one result from some depth on.
-/

namespace AutoTest

open CString Strtok Program Cmd

/-- `cmd_proc`, by the line it is given. -/
def cmdLines (host : Host) : Recursion cmdSig Text Fault World where
  body := cmdProc
  callee
    | .call line => some line
    | _ => none
  under := interp host
  stuck := .diverge
  call := by
    intro o line name
    cases o with
    | call l =>
      obtain rfl : l = line := Option.some.inj name
      refine ⟨(), fun f w => ?_⟩
      simp only [interp]
      cases f l w <;> rfl
    | _ => cases name
  plain := by
    intro o name f g w
    cases o with
    | call l => cases name
    | _ => rfl

theorem perform_eq_map (host : Host) (callee : Text → World → Except Fault World)
    (p : Cmd Unit) (w : World) :
    perform host callee p w = (p.run (interp host callee) w).map Prod.snd := by
  unfold perform
  cases p.run (interp host callee) w <;> rfl

theorem exec_eq_eval (host : Host) (depth : Nat) : exec host depth = (cmdLines host).eval depth := by
  induction depth with
  | zero => rfl
  | succ depth ih =>
    funext line w
    rw [exec, perform_eq_map, ih]
    rfl

/-! ## Handlers that return -/

/-- Some value drawn selects a key. -/
def Draws (draws : List Nat) : Prop := ∃ r ∈ draws, selects r = true

/-- `rand` comes to a value that selects a key, whenever it is asked. -/
def Host.Drawing (host : Host) : Prop := ∀ calls, Draws (host.rand calls)

def Op.Drawn : (o : Op) → o.Res → Prop
  | .rand, draws => Draws draws
  | _, _ => True

def Op.Finite : Op → Prop
  | .fault f => f ≠ .diverge
  | _ => True

abbrev Cmd.Finite {α : Type} (p : Cmd α) : Prop := p.Only Op.Finite

/-- The two handlers that draw. -/
def Func.draws : Func → Bool
  | .randomTime => true
  | .randomKey => true
  | _ => false

/-- The handlers that queue a message. -/
def Func.queues : Func → Bool
  | .ioevt => true
  | .call => true
  | .syslogConf => true
  | .hideFeatureProc => true
  | _ => false

/-- The handlers that end threads. -/
def Func.ends : Func → Bool
  | .stop => true
  | .quit => true
  | _ => false

/-- What only some handlers do: not return, queue a message, and start or end
a thread. -/
def Op.Usual (f : Func) : Op → Prop
  | .fault k => k = .diverge → f.draws = true
  | .msgsnd _ => f.queues = true
  | .pthreadCreate .scriptCmdProcess => f = .runScript
  | .pthreadCreate _ => f = .start
  | .pthreadKill _ => f.ends = true
  | .pthreadJoin _ => f.ends = true
  | _ => True

abbrev Cmd.Usual {α : Type} (f : Func) (p : Cmd α) : Prop := p.Only (Op.Usual f)

section Usual

variable {α : Type} {f : Func} (cmdNum : Nat)

theorem fault_usual {k : Fault} (h : k ≠ .diverge) : (Cmd.fault k : Cmd α).Usual f :=
  ⟨fun same => absurd same h, fun r => r.elim⟩

theorem print_usual (t : Text) : (Cmd.print t).Usual f := ⟨trivial, fun _ => trivial⟩

theorem say_usual (s : String) : (say s).Usual f := print_usual _

theorem snprintf_usual (size : Nat) (fmt : Text) : (Cmd.snprintf size fmt).Usual f := by
  unfold Cmd.snprintf
  split
  · trivial
  · exact fault_usual (by decide)

theorem sprintf_usual (size : Nat) (t : Text) : (Cmd.sprintf size t).Usual f :=
  .ite (fun _ => trivial) fun _ => fault_usual (by decide)

theorem cmdCode_usual (typed : Text) : (cmdCode cmdNum typed).Usual f :=
  .ite (fun _ => snprintf_usual _ _) fun _ => snprintf_usual _ _

theorem wrongParameter_usual : (wrongParameter cmdNum).Usual f := ⟨trivial, fun _ => print_usual _⟩

theorem msgsndOrSay_usual (queues : f.queues = true) (m : MsgQ) (failure : String) :
    (msgsndOrSay m failure).Usual f :=
  ⟨queues, fun _ => .ite (fun _ => say_usual _) fun _ => trivial⟩

theorem autoConfigLine_usual (line : Text) : (autoConfigLine line).Usual .autoConfig := by
  unfold autoConfigLine
  cases scriptLine line with
  | none => exact .ite (fun _ => trivial) fun _ => say_usual _
  | some line => exact .ite (fun _ => trivial) fun _ => ⟨trivial, fun _ => trivial⟩

theorem autoConfig_usual : (autoConfig cmdNum).Usual .autoConfig :=
  .bind_op trivial fun _ => .ite (fun _ => wrongParameter_usual cmdNum) fun _ =>
    .bind_op trivial fun _ => .bind (snprintf_usual _ _) fun _ => .bind_op trivial fun _ =>
      .bind_op trivial fun opened =>
        match opened with
        | none => trivial
        | some _ => .bind (each_only autoConfigLine_usual) fun _ => ⟨trivial, fun _ => trivial⟩

theorem showHelp_usual : showHelp.Usual .showHelp :=
  each_only fun _ => .ite (fun _ => print_usual _) fun _ => trivial

theorem showClientEntry_usual (index : Nat) : (showClientEntry index).Usual .showClient :=
  .bind (print_usual _) fun _ => .bind_op trivial fun _ => .bind_op trivial fun _ =>
    .bind_op trivial fun _ =>
    .ite (fun _ => say_usual _) fun _ => .bind_op trivial fun _ => print_usual _

theorem showScriptEntry_usual (index : Nat) : (showScriptEntry index).Usual .showClient :=
  .bind (print_usual _) fun _ => .bind_op trivial fun _ => .ite (fun _ => say_usual _) fun _ =>
    .bind_op trivial fun _ => print_usual _

theorem showClient_usual : (showClient cmdNum).Usual .showClient := by
  have shown : Cmd.Usual .showClient (do
      printConfFileName
      say "client Parameter:\n"
      Cmd.each (List.range 10) showClientEntry
      say "script Parameter:\n"
      Cmd.each (List.range 10) showScriptEntry) :=
    .bind_op trivial fun _ => .bind (say_usual _) fun _ =>
      .bind (each_only showClientEntry_usual) fun _ =>
      .bind (say_usual _) fun _ => each_only showScriptEntry_usual
  exact .bind_op trivial fun _ => .ite
    (fun _ => .bind (say_usual _) fun _ => .bind (print_usual _) fun _ => shown) fun _ => shown

theorem ioevt_usual : (ioevt cmdNum).Usual .ioevt :=
  .bind_op trivial fun _ => .ite (fun _ => wrongParameter_usual cmdNum) fun _ =>
    .bind_op trivial fun _ =>
    .ite (fun _ => wrongParameter_usual cmdNum) fun _ => .bind_op trivial fun _ =>
      .ite (fun _ => say_usual _) fun _ => .bind_op trivial fun _ =>
        .ite (fun _ => say_usual _) fun _ =>
        .bind_op trivial fun _ => .bind (cmdCode_usual cmdNum _) fun _ => .bind_op trivial fun _ =>
          .ite (fun _ => trivial) fun _ => .bind_op trivial fun _ =>
            .bind (snprintf_usual _ _) fun _ =>
            .bind_op trivial fun _ => .bind (snprintf_usual _ _) fun _ => .bind_op trivial fun keys =>
              .ite (fun _ => fault_usual (by decide)) fun _ =>
                match keyCodes keys with
                | .error _ => print_usual _
                | .ok _ => msgsndOrSay_usual rfl _ _

theorem call_usual : (AutoTest.call cmdNum).Usual .call :=
  .bind_op trivial fun _ => .ite (fun _ => wrongParameter_usual cmdNum) fun _ =>
    .bind_op trivial fun _ =>
    .ite (fun _ => say_usual _) fun _ => .bind_op trivial fun _ =>
      .ite (fun _ => say_usual _) fun _ =>
      .bind_op trivial fun _ => .bind (snprintf_usual _ _) fun _ => .bind_op trivial fun _ =>
        .bind (snprintf_usual _ _) fun _ => msgsndOrSay_usual rfl _ _

theorem syslogConf_usual : (syslogConf cmdNum).Usual .syslogConf :=
  .bind_op trivial fun _ => .ite (fun _ => wrongParameter_usual cmdNum) fun _ =>
    .bind_op trivial fun _ =>
    .ite (fun _ => say_usual _) fun _ => .bind_op trivial fun _ =>
      .ite (fun _ => say_usual _) fun _ =>
      .bind_op trivial fun _ => .bind (cmdCode_usual cmdNum _) fun _ => .bind_op trivial fun _ => .ite
        (fun _ => .bind_op trivial fun _ => .bind_op trivial fun _ => .bind_op trivial fun _ =>
          msgsndOrSay_usual rfl _ _)
        fun _ => .bind_op trivial fun _ => .bind_op trivial fun _ => msgsndOrSay_usual rfl _ _

theorem hideFeatureProc_usual : (hideFeatureProc cmdNum).Usual .hideFeatureProc :=
  .bind_op trivial fun _ => .ite (fun _ => wrongParameter_usual cmdNum) fun _ =>
    .bind_op trivial fun _ =>
    .ite (fun _ => say_usual _) fun _ => .bind_op trivial fun _ =>
      .ite (fun _ => say_usual _) fun _ =>
      .bind_op trivial fun _ => .bind (cmdCode_usual cmdNum _) fun _ => .bind_op trivial fun _ =>
        .bind_op trivial fun _ => msgsndOrSay_usual rfl _ _

theorem delay_usual : (delay cmdNum).Usual .delay :=
  .bind_op trivial fun _ => .ite (fun _ => wrongParameter_usual cmdNum) fun _ =>
    .bind_op trivial fun _ =>
    .ite (fun _ => ⟨trivial, fun _ => trivial⟩) fun _ => trivial

theorem look_usual : (look cmdNum).Usual .look := by
  have client (j i : Nat) : (lookClient j i).Usual .look :=
    .bind_op trivial fun _ => .bind_op trivial fun _ => print_usual _
  have calls (j : Nat) : (lookCalls j).Usual .look :=
    .bind (print_usual _) fun _ => each_only (client j)
  have script (index : Nat) : (lookScript index).Usual .look :=
    .bind_op trivial fun _ => .ite
      (fun _ => .bind_op trivial fun _ => .bind_op trivial fun _ => print_usual _) fun _ => trivial
  exact .bind (each_only calls) fun _ => each_only script

theorem createRec_usual : createRec.Usual .start :=
  .bind_op rfl fun created =>
    match created with
    | none => say_usual _
    | some _ => .bind_op trivial fun _ => say_usual _

theorem start_usual : (start cmdNum).Usual .start := by
  have all (recId : Tid) : (startAllRec recId).Usual .start :=
    .ite (fun _ => createRec_usual) fun _ => say_usual _
  exact .bind_op trivial fun _ => .ite (fun _ => wrongParameter_usual cmdNum) fun _ =>
    .bind_op trivial fun _ => .bind_op trivial fun recId => .bind_op trivial fun _ => .ite
      (fun _ => .ite (fun _ => say_usual _) fun _ => createRec_usual)
      fun _ => .bind_op trivial fun _ => .ite (fun _ => say_usual _) fun _ =>
        .bind_op trivial fun _ =>
        .ite (fun _ => say_usual _) fun _ => .bind_op trivial fun _ =>
          .ite (fun _ => say_usual _) fun _ =>
          .bind_op trivial fun _ => .bind_op trivial fun _ => .ite
            (fun _ => .ite
              (fun _ => .bind_op rfl fun created =>
                match created with
                | none => say_usual _
                | some _ => .bind_op trivial fun _ => .bind (say_usual _) fun _ => all recId)
              fun _ => .bind (say_usual _) fun _ => all recId)
            fun _ => .ite
              (fun _ => .ite (fun _ => say_usual _) fun _ => .bind_op rfl fun created =>
                match created with
                | none => say_usual _
                | some _ => .bind_op trivial fun _ => say_usual _)
              fun _ => wrongParameter_usual cmdNum

theorem stopScript_usual (index : Nat) : (stopScript index).Usual .stop :=
  .bind_op trivial fun _ => .ite (fun _ => trivial) fun _ => .bind_op rfl fun _ =>
    .bind_op rfl fun _ => ⟨trivial, fun _ => trivial⟩

theorem stop_usual : (stop cmdNum).Usual .stop := by
  have ended (set : Cmd Unit) (hset : set.Usual .stop) (id : Tid) (text : String) :
      Cmd.Usual .stop (do
      pthreadKill id
      pthreadJoin id
      set
      say text) :=
    .bind_op rfl fun _ => .bind_op rfl fun _ => .bind hset fun _ => say_usual _
  have send (sendId : Tid) : (stopSend sendId).Usual .stop :=
    .ite (fun _ => ended (setSendThreadID 0) ⟨trivial, fun _ => trivial⟩ sendId _) fun _ => trivial
  have receive (recId : Tid) : (stopRec recId).Usual .stop :=
    .ite (fun _ => ended (setRecThreadID 0) ⟨trivial, fun _ => trivial⟩ recId _) fun _ => trivial
  exact .bind_op trivial fun sendId => .bind_op trivial fun recId => .bind_op trivial fun _ =>
    .ite (fun _ => wrongParameter_usual cmdNum) fun _ => .bind_op trivial fun _ => .ite
      (fun _ => .bind (send sendId) fun _ => .bind (receive recId) fun _ =>
        .bind (each_only stopScript_usual) fun _ => .bind_op trivial fun _ => say_usual _)
      fun _ => .ite (fun _ => send sendId) fun _ => .ite (fun _ => receive recId) fun _ =>
        .bind_op trivial fun _ => .ite
          (fun _ => .bind_op trivial fun _ => .ite (fun _ => say_usual _) fun _ =>
            .bind_op trivial fun _ =>
            .ite (fun _ => trivial) fun _ => .bind_op rfl fun _ => .bind_op rfl fun _ =>
              .bind_op trivial fun _ => .bind_op trivial fun _ =>
                .bind_op trivial fun _ => print_usual _)
          fun _ => wrongParameter_usual cmdNum

theorem noteClients_usual (j : Nat) (clients : List Nat) (ret : Int) :
    (noteClients j clients ret).Usual .quit := by
  induction clients generalizing ret with
  | nil => trivial
  | cons i clients ih =>
    apply Prog.Only.bind_op trivial
    intro tested
    apply Prog.Only.bind_op trivial
    intro count
    generalize callReport i tested count = report
    exact .bind (sprintf_usual _ report) fun _ => .bind_op trivial fun ret => .ite
      (fun _ => .bind (say_usual _) fun _ => ih ret) fun _ => ih ret

theorem noteScript_usual (index : Nat) (tested count : Int) :
    (noteScript index tested count).Usual .quit := by
  apply Prog.Only.bind_op trivial
  intro name
  generalize scriptReport name tested count = report
  exact .bind (sprintf_usual _ report) fun _ => ⟨trivial, fun _ => trivial⟩

theorem noteScripts_usual (slots : List Nat) (ret : Int) : (noteScripts slots ret).Usual .quit := by
  induction slots generalizing ret with
  | nil => trivial
  | cons index slots ih =>
    exact .bind_op trivial fun _ => .ite (fun _ => ih ret) fun _ => .bind_op trivial fun tested =>
      .bind_op trivial fun count => .bind (noteScript_usual index tested count) ih

theorem quitNote_usual : quitNote.Usual .quit := by
  have calls (j : Nat) : (noteCalls j).Usual .quit :=
    .bind_op trivial fun _ => noteClients_usual j _ _
  exact .bind_op trivial fun _ => .ite
    (fun _ => .bind_op trivial fun _ => .bind_op trivial fun _ => .bind (calls 0) fun _ =>
      .bind (calls 1) fun _ => .bind (noteScripts_usual _ _) fun _ => .bind_op trivial fun _ =>
        .ite (fun _ => say_usual _) fun _ => say_usual _)
    fun _ => fault_usual (by decide)

theorem quit_usual : (quit cmdNum).Usual .quit := by
  have ended (id : Tid) (text : String) : Cmd.Usual .quit (do
      pthreadKill id
      pthreadJoin id
      say text) :=
    .bind_op rfl fun _ => .bind_op rfl fun _ => say_usual _
  exact .bind_op trivial fun sendId => .bind_op trivial fun recId =>
    .bind (.ite (fun _ => ended sendId _) fun _ => trivial) fun _ =>
      .bind (.ite (fun _ => ended recId _) fun _ => trivial) fun _ => quitNote_usual

theorem runScript_usual : (runScript cmdNum).Usual .runScript :=
  .bind_op trivial fun _ => .ite (fun _ => say_usual _) fun _ => .bind_op trivial fun _ =>
    .ite (fun _ => wrongParameter_usual cmdNum) fun _ => .bind_op trivial fun _ =>
      .ite (fun _ => wrongParameter_usual cmdNum) fun _ => .bind_op trivial fun _ =>
        .ite (fun _ => say_usual _) fun _ => .bind_op trivial fun _ =>
          .bind (snprintf_usual _ _) fun _ =>
          .bind_op trivial fun _ => .bind_op rfl fun created =>
            match created with
            | none => say_usual _
            | some _ => ⟨trivial, fun _ => trivial⟩

theorem addClient_usual : (addClient cmdNum).Usual .addClient :=
  .bind_op trivial fun _ => .ite (fun _ => wrongParameter_usual cmdNum) fun _ =>
    .bind_op trivial fun _ => .bind_op trivial fun _ => .bind_op trivial fun _ =>
      .bind_op trivial fun _ => .bind_op trivial fun _ => .ite (fun _ => say_usual _) fun _ =>
        .bind_op trivial fun _ => .ite (fun _ => print_usual _) fun _ =>
          .bind_op trivial fun _ => .bind_op trivial fun _ => .bind_op trivial fun _ =>
            .bind_op trivial fun _ => say_usual _

theorem delClient_usual : (delClient cmdNum).Usual .delClient :=
  .bind_op trivial fun _ => .bind_op trivial fun _ =>
    .ite (fun _ => wrongParameter_usual cmdNum) fun _ =>
    .bind_op trivial fun _ => .bind_op trivial fun _ => .bind_op trivial fun _ =>
      .ite (fun _ => print_usual _) fun _ => .bind_op trivial fun _ => .bind_op trivial fun _ =>
        .bind_op trivial fun _ => .bind_op trivial fun _ => .bind_op trivial fun _ =>
          ⟨trivial, fun _ => trivial⟩

theorem changeClientIpAddr_usual : (changeClientIpAddr cmdNum).Usual .changeClientIpAddr :=
  .bind_op trivial fun _ => .ite (fun _ => wrongParameter_usual cmdNum) fun _ =>
    .bind_op trivial fun _ => .bind_op trivial fun _ => .bind_op trivial fun _ =>
      .bind_op trivial fun _ => .bind_op trivial fun _ => .ite (fun _ => say_usual _) fun _ =>
        .bind_op trivial fun _ => .ite (fun _ => say_usual _) fun _ =>
          .bind_op trivial fun _ => .bind_op trivial fun _ => .bind_op trivial fun _ => say_usual _

theorem randomTime_usual : (randomTime cmdNum).Usual .randomTime :=
  .bind_op trivial fun _ => .ite (fun _ => wrongParameter_usual cmdNum) fun _ =>
    .bind_op trivial fun _ => .bind_op trivial fun _ =>
      .ite (fun _ => wrongParameter_usual cmdNum) fun _ =>
      .ite (fun _ => trivial) fun _ => .bind_op trivial fun draws =>
        match draws with
        | [] => ⟨fun _ => rfl, fun r => r.elim⟩
        | _ :: _ => .ite (fun _ => ⟨trivial, fun _ => trivial⟩) fun _ => trivial

theorem drawKey_usual (randomKeyNum : Int) (draws : List Nat) :
    (drawKey randomKeyNum draws).Usual .randomKey := by
  induction draws generalizing randomKeyNum with
  | nil =>
    exact .ite (fun _ => fault_usual (by decide)) fun _ => .ite (fun _ => trivial) fun _ =>
      ⟨fun _ => rfl, fun r => r.elim⟩
  | cons r draws ih =>
    exact .ite (fun _ => fault_usual (by decide)) fun _ => .ite (fun _ => trivial) fun _ => ih _

theorem randomKey_usual : (randomKey cmdNum).Usual .randomKey := by
  have sends (randomKeyNum : Int) (draws : List Nat) :
      (sendRandomKey randomKeyNum draws).Usual .randomKey :=
    .ite (fun _ => say_usual _) fun _ => .bind (drawKey_usual _ _) fun _ => .bind_op trivial fun _ =>
      .bind (sprintf_usual _ _) fun _ => ⟨trivial, fun _ => ⟨trivial, fun _ => trivial⟩⟩
  refine .bind_op trivial fun _ => .ite (fun _ => wrongParameter_usual cmdNum) fun _ =>
    .bind_op trivial ?_
  intro draws
  cases draws with
  | nil => exact ⟨fun _ => rfl, fun r => r.elim⟩
  | cons r rs =>
    dsimp only
    generalize getRandValue 0 maxKeyNum r = drawnKey
    exact sends drawnKey rs

theorem Func.run_usual (f : Func) : (f.run cmdNum).Usual f := by
  cases f with
  | showHelp => exact showHelp_usual
  | autoConfig => exact autoConfig_usual cmdNum
  | addClient => exact addClient_usual cmdNum
  | call => exact call_usual cmdNum
  | changeClientIpAddr => exact changeClientIpAddr_usual cmdNum
  | delClient => exact delClient_usual cmdNum
  | delay => exact delay_usual cmdNum
  | ioevt => exact ioevt_usual cmdNum
  | look => exact look_usual cmdNum
  | quit => exact quit_usual cmdNum
  | runScript => exact runScript_usual cmdNum
  | randomTime => exact randomTime_usual cmdNum
  | randomKey => exact randomKey_usual cmdNum
  | showClient => exact showClient_usual cmdNum
  | start => exact start_usual cmdNum
  | stop => exact stop_usual cmdNum
  | syslogConf => exact syslogConf_usual cmdNum
  | hideFeatureProc => exact hideFeatureProc_usual cmdNum

end Usual

/-- The handlers that neither start or end a thread nor queue a message. -/
def Func.mild (f : Func) : Bool := !f.queues && !f.threads

theorem Func.run_mild {f : Func} (mild : f.mild = true) (cmdNum : Nat) :
    (f.run cmdNum).Only fun o : Op => o.moves = false := by
  obtain ⟨queues, threads⟩ : f.queues = false ∧ f.threads = false := by simpa [Func.mild] using mild
  apply Prog.Only.mono _ (f.run_usual cmdNum)
  intro o usual
  cases o with
  | msgsnd m => exact absurd (queues.symm.trans usual) (by decide)
  | pthreadCreate routine => cases routine <;> cases usual <;> cases threads
  | pthreadKill id | pthreadJoin id => cases f <;> first | (cases usual; done) | cases threads
  | _ => rfl

section Finite

variable {α : Type} (cmdNum : Nat)

theorem Cmd.Usual.finite {f : Func} {p : Cmd α} (h : p.Usual f)
    (draws : f.draws = false) : p.Finite := by
  apply Prog.Only.mono _ h
  intro o usual
  cases o with
  | fault k =>
    rintro rfl
    simp [usual rfl] at draws
  | _ => trivial

theorem fault_finite {f : Fault} (h : f ≠ .diverge) : (Cmd.fault f : Cmd α).Finite :=
  ⟨h, fun r => r.elim⟩

theorem say_finite (s : String) : (say s).Finite := (say_usual (f := .look) s).finite rfl

theorem wrongParameter_finite : (wrongParameter cmdNum).Finite :=
  (wrongParameter_usual (f := .look) cmdNum).finite rfl

theorem sprintf_finite (size : Nat) (t : Text) : (Cmd.sprintf size t).Finite :=
  (sprintf_usual (f := .look) size t).finite rfl

/-! The handlers that draw return where a key is drawn at last. -/

theorem drawKey_finite {randomKeyNum : Int} {draws : List Nat}
    (h : (gKeyLib randomKeyNum.toNat).keyCode.length > 0 ∨ Draws draws) :
    (drawKey randomKeyNum draws).Finite := by
  induction draws generalizing randomKeyNum with
  | nil =>
    have filled := h.resolve_right (by simp [Draws])
    exact .ite (fun _ => fault_finite (by decide)) fun _ => .ite (fun _ => trivial) fun empty =>
      absurd filled empty
  | cons r draws ih =>
    have later (empty : ¬ (gKeyLib randomKeyNum.toNat).keyCode.length > 0) :
        (drawKey (getRandValue 0 maxKeyNum r) draws).Finite := by
      apply ih
      obtain ⟨d, hd, key⟩ := h.resolve_left empty
      rcases List.mem_cons.mp hd with rfl | more
      · exact .inl (of_decide_eq_true key)
      · exact .inr ⟨d, more, key⟩
    exact .ite (fun _ => fault_finite (by decide)) fun _ => .ite (fun _ => trivial) later

theorem sendRandomKey_finite {randomKeyNum : Int} {draws : List Nat}
    (h : (gKeyLib randomKeyNum.toNat).keyCode.length > 0 ∨ Draws draws) :
    (sendRandomKey randomKeyNum draws).Finite :=
  .ite (fun _ => say_finite _) fun _ => .bind (drawKey_finite h) fun _ => .bind_op trivial fun _ =>
    .bind (sprintf_finite _ _) fun _ => ⟨trivial, fun _ => ⟨trivial, fun _ => trivial⟩⟩

theorem randomKey_finite : (randomKey cmdNum).Given Op.Drawn Op.Finite := by
  apply Prog.Given.step trivial
  intro _
  apply Prog.Given.ite
  · exact fun _ => .of_only (wrongParameter_finite cmdNum)
  · intro _
    apply Prog.Given.bind_op trivial
    intro draws drawn
    cases draws with
    | nil => simp [Op.Drawn, Draws] at drawn
    | cons r rs =>
      have first : (gKeyLib (getRandValue 0 maxKeyNum r).toNat).keyCode.length > 0 ∨ Draws rs := by
        obtain ⟨d, hd, key⟩ := drawn
        rcases List.mem_cons.mp hd with rfl | more
        · exact .inl (of_decide_eq_true key)
        · exact .inr ⟨d, more, key⟩
      dsimp only
      generalize getRandValue 0 maxKeyNum r = drawnKey at first ⊢
      exact .of_only (sendRandomKey_finite first)

theorem randomTime_finite : (randomTime cmdNum).Given Op.Drawn Op.Finite := by
  apply Prog.Given.step trivial
  intro _
  apply Prog.Given.ite
  · exact fun _ => .of_only (wrongParameter_finite cmdNum)
  · intro _
    apply Prog.Given.step trivial
    intro first
    apply Prog.Given.step trivial
    intro second
    apply Prog.Given.ite
    · exact fun _ => .of_only (wrongParameter_finite cmdNum)
    · intro _
      apply Prog.Given.ite
      · exact fun _ => trivial
      · intro _
        apply Prog.Given.bind_op trivial
        intro draws drawn
        cases draws with
        | nil => simp [Op.Drawn, Draws] at drawn
        | cons r rs =>
          generalize getRandValue (atoi first) (atoi second) r = delayTime
          exact .of_only (.ite (fun _ => ⟨trivial, fun _ => trivial⟩) fun _ => trivial)

theorem cmdProc_finite (line : Text) : (cmdProc line).Given Op.Drawn Op.Finite := by
  apply Prog.Given.step trivial
  intro _
  apply Prog.Given.step trivial
  intro name
  unfold dispatch
  cases getCmdCode name with
  | none => exact .of_only (say_finite _)
  | some cmdNum =>
    cases drawing : (cmdEntry cmdNum).func.draws with
    | false => exact .of_only ((Func.run_usual cmdNum _).finite drawing)
    | true =>
      dsimp only
      generalize (cmdEntry cmdNum).func = func at drawing
      cases func with
      | randomTime => exact randomTime_finite cmdNum
      | randomKey => exact randomKey_finite cmdNum
      | _ => cases drawing

end Finite

/-! ## Operations that return -/

section Operations

variable {host : Host}

theorem slotwise_error {α : Type} {g : Slot → Except Fault α} {scriptNum : Int} {f : Fault}
    (h : (slotIndex scriptNum >>= g) = .error f) : f = .bounds ∨ ∃ slot, g slot = .error f := by
  unfold slotIndex at h
  split at h
  · exact .inr ⟨_, h⟩
  · cases h
    exact .inl rfl

theorem sharedStep_diverge {o : Op} {s : Shared} (h : sharedStep host o s = .error .diverge) :
    o = .fault .diverge := by
  have pureSlot {β : Type} {g : Slot → β} {n : Int}
      (hslot : (do return g (← slotIndex n) : Except Fault β) = .error .diverge) : False := by
    rcases slotwise_error hslot with impossible | ⟨slot, hget⟩
    · cases impossible
    · cases hget
  cases o with
  | fault f =>
    cases h
    rfl
  | getScriptThreadID | getCountOfScriptRun | getScriptName => exact (pureSlot (reading_error h)).elim
  | setScriptName | freeScript => exact (pureSlot (writing_error h)).elim
  | setCountOfScriptRun | setScriptThreadID =>
    have hset := writing_error h
    simp only [Scripts.setCountOfScriptRun, Scripts.setScriptThreadID] at hset
    split at hset
    · cases hset
    · exact (pureSlot hset).elim
  | copyScript =>
    rcases slotwise_error (writing_error h) with impossible | ⟨slot, hcopy⟩
    · cases impossible
    · simp only [bind, Except.bind, pure, Except.pure, throw, throwThe, MonadExceptOf.throw] at hcopy
      repeat' split at hcopy
      all_goals cases hcopy
  | scriptCmd =>
    rcases slotwise_error (reading_error h) with impossible | ⟨slot, hread⟩
    · cases impossible
    · split at hread
      · cases hread
      · split at hread <;> cases hread
  | mallocScript =>
    simp only [sharedStep] at h
    split at h <;> split at h <;> cases h
    all_goals
      rename_i hset
      exact (pureSlot hset).elim
  | getCountOfSuccessCall =>
    have hread := reading_error h
    unfold Shared.getCountOfSuccessCall at hread
    repeat' split at hread
    all_goals cases hread
  | setCountOfSuccessCall =>
    have hset := writing_error h
    unfold Shared.setCountOfSuccessCall at hset
    repeat' split at hset
    all_goals cases hset
  | closeSocket =>
    have hclose := writing_error h
    simp only [Net.closeSocket] at hclose
    repeat' split at hclose
    all_goals cases hclose
  | setClientIpAddr =>
    have hcopy := writing_error h
    unfold Net.setClientIpAddr at hcopy
    repeat' split at hcopy
    all_goals cases hcopy
  | pthreadJoin =>
    have hjoin := writing_error h
    unfold Shared.pthreadJoin at hjoin
    split at hjoin <;> cases hjoin
  | getClientIpAddr | pthreadKill | msgsnd =>
    simp only [sharedStep] at h
    split at h <;> cases h
  | _ => cases h

/-- Only a nested line and a loop of draws do not return. -/
theorem interp_diverge {callee : Text → World → Except Fault World} {o : Op} {w : World}
    (h : interp host callee o w = .error .diverge) :
    o = .fault .diverge ∨ ∃ line, o = .call line := by
  cases o with
  | call line => exact .inr ⟨line, rfl⟩
  | setParams line =>
    have hload := writing_error h
    unfold Params.load at hload
    split at hload <;> cases hload
  | paramNum => cases h
  | param i =>
    have hread := reading_error h
    unfold Params.param at hread
    split at hread <;> cases hread
  | getTokens inStr delim =>
    simp only [interp] at h
    split at h
    · cases h
    · rename_i hsplit
      cases h
      unfold Params.getTokens at hsplit
      split at hsplit <;> cases hsplit
  | _ =>
    left
    simp only [interp] at h
    split at h
    · cases h
    · rename_i hstep
      cases h
      exact sharedStep_diverge hstep

theorem interp_drawn (drawing : host.Drawing) {callee : Text → World → Except Fault World} {o : Op}
    {r : o.Res} {w v : World} (h : interp host callee o w = .ok (r, v)) : o.Drawn r := by
  cases o with
  | rand =>
    cases h
    exact drawing _
  | _ => trivial

theorem cmdLines_honest (drawing : host.Drawing) : (cmdLines host).Honest Op.Drawn Op.Finite where
  body := cmdProc_finite
  answers _ _ _ _ _ h := interp_drawn drawing h
  plain f o w finite name h := by
    rcases interp_diverge h with rfl | ⟨line, rfl⟩
    · exact finite rfl
    · cases name

end Operations

/-! ## The lines that are passed on -/

/-- A line that `autoConfig` reads in the file that `line` names. -/
def Loads (host : Host) (line' line : Text) : Prop :=
  ∃ name typed fileName file, lineTokens line = some [name, typed] ∧
    commandFunc name = some .autoConfig ∧
    CString.snprintf maxFileName typed = some fileName ∧ host.files fileName = some file ∧
    line' ∈ scriptContent file

def Op.PassesKey : Op → Prop
  | .call line => ∃ client index, line = randomKeyLine client (gKeyLib index).keyName
  | _ => True

section Passed

variable {host : Host} {w u : World} {line' : Text}

theorem silent_comes {p : Cmd Unit} (silent : p.Silent) : ¬ (cmdLines host).Comes p w line' u := by
  intro h
  obtain ⟨o, name, ho⟩ := h.only silent
  cases o <;> cases name
  exact ho

theorem autoConfigLine_comes {read : Text}
    (h : (cmdLines host).Comes (autoConfigLine read) w line' u) : scriptLine read = some line' := by
  unfold autoConfigLine at h
  split at h
  · cases h
  · cases hread : scriptLine read with
    | none =>
      rw [hread] at h
      exact (silent_comes (say_plain _).silent h).elim
    | some cmdTmp =>
      rw [hread] at h
      cases h with
      | here name => exact name
      | past n answer later => cases later

theorem autoConfigLines_comes {reads : List Text}
    (h : (cmdLines host).Comes (each reads autoConfigLine) w line' u) :
    line' ∈ reads.filterMap scriptLine := by
  induction reads generalizing w with
  | nil => cases h
  | cons read reads ih =>
    rcases h.bind_inv with first | ⟨_, t, later⟩
    · exact List.mem_filterMap.mpr ⟨read, by simp, autoConfigLine_comes first⟩
    · obtain ⟨other, inside, reading⟩ := List.mem_filterMap.mp (ih later)
      exact List.mem_filterMap.mpr ⟨other, by simp [inside], reading⟩

/-- With one argument, the lines of the file that it names. -/
theorem autoConfig_comes {cmdNum : Nat} (h : (cmdLines host).Comes (autoConfig cmdNum) w line' u) :
    w.params.gParamNum = 1 ∧ ∃ typed fileName file, w.params.param 1 = .ok typed ∧
      CString.snprintf maxFileName typed = some fileName ∧ host.files fileName = some file ∧
      line' ∈ scriptContent file := by
  unfold autoConfig at h
  obtain ⟨_, _, _, hcount, counted⟩ := h.bind_op rfl
  cases hcount
  split at counted
  · exact (silent_comes (wrongParameter_plain cmdNum).silent counted).elim
  rename_i one
  obtain ⟨_, typed, _, hread, named⟩ := counted.bind_op rfl
  obtain ⟨own, rfl⟩ := reading_ok hread
  cases copied : CString.snprintf maxFileName typed with
  | none =>
    rw [Cmd.snprintf_none copied] at named
    cases named with
    | here name => cases name
    | past n answer later => cases answer
  | some fileName =>
    rw [Cmd.snprintf_some copied, Prog.pure_bind'] at named
    obtain ⟨_, _, _, hset, set⟩ := named.bind_op rfl
    cases hset
    obtain ⟨_, _, _, hopen, opened⟩ := set.bind_op rfl
    cases hopen
    cases hfile : host.files fileName with
    | none =>
      simp only [hfile] at opened
      cases opened
    | some file =>
      simp only [hfile] at opened
      refine ⟨Classical.not_not.mp one, typed, fileName, file, own, copied, hfile, ?_⟩
      rcases opened.bind_inv with lines | ⟨_, t, closing⟩
      · exact autoConfigLines_comes lines
      · exact (silent_comes (p := Cmd.fclose) ⟨trivial, fun _ => trivial⟩ closing).elim

theorem sprintf_passes {size : Nat} {t : Text} {f : Text → Cmd Unit} (hf : (f t).Only Op.PassesKey) :
    (Cmd.sprintf size t >>= f).Only Op.PassesKey := by
  unfold Cmd.sprintf
  by_cases fits : t.length < size
  · rw [if_pos fits]
    exact hf
  · rw [if_neg fits]
    exact ⟨trivial, fun r => r.elim⟩

theorem silent_passes {α : Type} {p : Cmd α} (silent : p.Silent) : p.Only Op.PassesKey := by
  apply silent.mono
  intro o ho
  cases o with
  | call line => exact ho.elim
  | _ => trivial

/-- `randomKey` passes on a key press, whatever it draws. -/
theorem randomKey_passes (cmdNum : Nat) : (randomKey cmdNum).Only Op.PassesKey := by
  have quiet (randomKeyNum : Int) (draws : List Nat) : (drawKey randomKeyNum draws).Silent :=
    Prog.Only.mono (fun _ ho => ho.1) (drawKey_keeps randomKeyNum draws)
  have send (randomKeyNum : Int) (draws : List Nat) :
      (sendRandomKey randomKeyNum draws).Only Op.PassesKey :=
    .ite (fun _ => silent_passes (say_plain _).silent) fun _ =>
      .bind (silent_passes (quiet _ _)) fun index => .bind_op trivial fun client =>
        sprintf_passes ⟨⟨client, index, rfl⟩, fun _ => ⟨trivial, fun _ => trivial⟩⟩
  apply Prog.Only.bind_op trivial
  intro gParamNum
  apply Prog.Only.ite
  · exact fun _ => silent_passes (wrongParameter_plain cmdNum).silent
  · intro _
    apply Prog.Only.bind_op trivial
    intro draws
    cases draws with
    | nil => exact ⟨trivial, fun r => r.elim⟩
    | cons r rs =>
      dsimp only
      generalize getRandValue 0 maxKeyNum r = drawn
      exact send drawn rs

/-- The handlers that pass on a line are those of `autoConfig` and `randomKey`. -/
theorem Func.run_comes {f : Func} {cmdNum : Nat}
    (h : (cmdLines host).Comes (f.run cmdNum) w line' u) : f = .autoConfig ∨ f = .randomKey := by
  apply Classical.byContradiction
  intro neither
  have aside : Group.nested ∉ f.groups := by cases f <;> simp [Func.groups] at neither ⊢
  obtain ⟨o, name, inside⟩ := h.only (f.run_touches cmdNum)
  cases o <;> cases name
  exact aside inside

/-- A line that `cmd_proc` takes for `randomKey`. -/
def PicksKey (line : Text) : Prop :=
  ∃ name args, lineTokens line = some (name :: args) ∧ commandFunc name = some .randomKey

/-- What a line passes on: a line of the file it names, or a random key press. -/
def Passes (host : Host) (line' line : Text) : Prop :=
  Loads host line' line ∨ PicksKey line ∧
    ∃ client index, line' = randomKeyLine client (gKeyLib index).keyName

/-- The name by which a line is dispatched is its own first token. -/
theorem dispatched_name {line name : Text} {cmdNum : Nat} {old p : Params}
    (hload : old.load line = .ok p)
    (first : p.param 0 = .ok name) (code : getCmdCode name = some cmdNum) :
    ∃ args, lineTokens line = some (name :: args) ∧ Params.Loaded (name :: args) old p := by
  cases tokens : lineTokens line with
  | none =>
    rw [load_undefined tokens] at hload
    cases hload
  | some argv =>
    obtain ⟨p', same, own⟩ := Params.load_own tokens old
    cases same.symm.trans hload
    cases argv with
    | nil =>
      unfold Params.param at first
      split at first
      · cases first
      · rename_i offset _
        cases first
        rw [unknown_blank (blank_tmp tokens hload offset)] at code
        cases code
    | cons word args =>
      obtain rfl : word = name := Except.ok.inj ((own.own 0 (by simp)).symm.trans first)
      exact ⟨args, rfl, own⟩

theorem cmdProc_comes {line : Text} (h : (cmdLines host).Comes (cmdProc line) w line' u) :
    Passes host line' line := by
  obtain ⟨_, _, _, hset, loaded⟩ := h.bind_op rfl
  obtain ⟨p, hload, rfl⟩ := writing_ok hset
  obtain ⟨_, name, _, hread, dispatched⟩ := loaded.bind_op rfl
  obtain ⟨first, rfl⟩ := reading_ok hread
  unfold dispatch at dispatched
  cases code : getCmdCode name with
  | none =>
    simp only [code] at dispatched
    exact (silent_comes (say_plain _).silent dispatched).elim
  | some cmdNum =>
    simp only [code] at dispatched
    obtain ⟨args, tokens, own⟩ := dispatched_name hload first code
    rcases Func.run_comes dispatched with func | func
    · rw [func] at dispatched
      obtain ⟨count, typed, fileName, file, second, copied, hfile, inside⟩ :=
        autoConfig_comes dispatched
      have one : args.length = 1 := by
        have counted := own.count
        simp only [List.length_cons] at counted count
        omega
      obtain ⟨b, rfl⟩ := List.length_eq_one_iff.mp one
      obtain rfl : b = typed := Except.ok.inj ((own.own 1 (by simp)).symm.trans second)
      exact .inl ⟨name, b, fileName, file, tokens,
        by simp [commandFunc, code, func], copied, hfile, inside⟩
    · rw [func] at dispatched
      obtain ⟨o, call, passes⟩ := dispatched.only (randomKey_passes cmdNum)
      cases o <;> cases call
      exact .inr ⟨⟨name, args, tokens, by simp [commandFunc, code, func]⟩, passes⟩

end Passed

/-! ## Configuration files -/

/-- Every line is skipped or has a command. -/
def Parsed (file : Text) : Prop :=
  ∀ read ∈ scriptReads file, read.head? = some '#' ∨ read.head? = some '\n' ∨ ';' ∈ read

/-- A line that loads a file without errors. -/
structure ConfigLine (host : Host) where
  line : Text
  name : Text
  typed : Text
  fileName : Text
  file : Text
  tokens : lineTokens line = some [name, typed]
  named : commandFunc name = some .autoConfig
  copied : CString.snprintf maxFileName typed = some fileName
  opened : host.files fileName = some file
  parsed : Parsed file

section Config

variable {host : Host}

theorem autoConfigLine_exec {read : Text}
    (parsed : read.head? = some '#' ∨ read.head? = some '\n' ∨ ';' ∈ read)
    (callee : Text → World → Except Fault World) (w : World) :
    perform host callee (autoConfigLine read) w = runAll callee (scriptLine read).toList w := by
  unfold autoConfigLine
  by_cases skip : read.head? = some '#' ∨ read.head? = some '\n'
  · have nothing : scriptLine read = none := by simp [scriptLine, skip]
    rw [if_pos skip, nothing]
    rfl
  · have command : ';' ∈ read := by
      simp only [not_or] at skip
      exact (parsed.resolve_left skip.1).resolve_left skip.2
    have cmdTmp : scriptLine read = some (read.takeWhile (· ≠ ';')) := by
      simp [scriptLine, skip, command]
    rw [if_neg skip, cmdTmp]
    simp only [perform, Cmd.call, Prog.run, interp, Option.toList_some, runAll]
    cases callee (read.takeWhile (· ≠ ';')) w <;> rfl

theorem perform_bind (callee : Text → World → Except Fault World) (p q : Cmd Unit) (w : World) :
    perform host callee (p >>= fun _ => q) w =
      match perform host callee p w with
      | .ok w => perform host callee q w
      | .error f => .error f := by
  simp only [perform, Prog.run_bind]
  cases p.run (interp host callee) w <;> rfl

theorem autoConfigLines_exec {reads : List Text}
    (parsed : ∀ read ∈ reads, read.head? = some '#' ∨ read.head? = some '\n' ∨ ';' ∈ read)
    (callee : Text → World → Except Fault World) (w : World) :
    perform host callee (each reads autoConfigLine) w = runAll callee
      (reads.filterMap scriptLine) w := by
  induction reads generalizing w with
  | nil => rfl
  | cons read reads ih =>
    have rest (w : World) := ih (fun r hr => parsed r (by simp [hr])) w
    have split : (read :: reads).filterMap scriptLine =
        (scriptLine read).toList ++ reads.filterMap scriptLine := by
      cases command : scriptLine read <;> simp [command]
    rw [each, perform_bind, autoConfigLine_exec (parsed read (by simp)), split, runAll_append]
    cases runAll callee (scriptLine read).toList w with
    | error f => rfl
    | ok v => exact rest v

theorem perform_now {callee : Text → World → Except Fault World} {o : Op}
    {f : o.Res → Cmd Unit} {r : o.Res} {w v : World} (answer : interp host callee o w = .ok (r, v)) :
    perform host callee (Prog.op o .pure >>= f) w = perform host callee (f r) v := by
  have run : (Prog.op o .pure >>= f).run (interp host callee) w = (f r).run (interp host callee) v :=
    Prog.run_op_ok (S := cmdSig) answer
  simp only [perform, run]

/-- The state in which the commands of the file begin. -/
def ConfigLine.start (l : ConfigLine host) (w : World) : World where
  params := (w.params.load l.line).toOption.getD w.params
  shared := { w.shared with gConfFileName := l.fileName }

/-- A configuration file is the sequence of its commands. -/
theorem ConfigLine.exec_config (l : ConfigLine host) (depth : Nat) (w : World) :
    exec host (depth + 1) l.line w = runAll (exec host depth) (scriptContent l.file) (l.start w) := by
  obtain ⟨cmdNum, code, func⟩ := Option.map_eq_some_iff.mp l.named
  obtain ⟨p, hload, own, hrun⟩ := cmdProc_run host (exec host depth) l.tokens rfl code w
  have started : l.start w =
      { params := p, shared := { w.shared with gConfFileName := l.fileName } } := by
    simp [ConfigLine.start, hload, Except.toOption]
  have second : interp host (exec host depth) (.param 1) { w with params := p } =
      .ok (l.typed, { w with params := p }) := by
    simp only [interp, own.own 1 (by simp), reading, List.getElem_cons_succ, List.getElem_cons_zero]
  have one : ¬ p.gParamNum ≠ 1 := by simp [own.count]
  have closes : perform host (exec host depth) fclose = .ok := rfl
  have handled : exec host (depth + 1) l.line w =
      perform host (exec host depth) (autoConfig cmdNum) { w with params := p } := by
    simp only [exec, perform, hrun, func, Func.run]
  rw [handled, autoConfig, Cmd.paramNum, perform_now rfl, if_neg one, Cmd.param, perform_now second,
    Cmd.snprintf_some l.copied, Prog.pure_bind', Cmd.setConfFileName, perform_now rfl, Cmd.fopen,
    perform_now rfl]
  simp only [l.opened, perform_bind, autoConfigLines_exec l.parsed, closes, started, scriptContent]
  cases runAll _ _ _ <;> rfl

end Config

/-! ## How deep lines nest -/

/-- The first token of a line that begins with a short word. -/
theorem lineTokens_word {word rest : Text} {argv : List Text} (plain : '%' ∉ word ∧ ' ' ∉ word)
    (filled : word ≠ []) (short : word.length < maxScContent - 1)
    (tokens : lineTokens (word ++ ' ' :: rest) = some argv) : argv.head? = some word := by
  unfold lineTokens CString.snprintf at tokens
  rw [format_plain_append plain.1, format_cons (by decide)] at tokens
  cases hrest : format rest with
  | none => simp [hrest] at tokens
  | some t =>
    obtain ⟨room, hroom⟩ : ∃ room, maxScContent - 1 - word.length = room + 1 :=
      ⟨maxScContent - 1 - word.length - 1, by omega⟩
    have cut : (word ++ ' ' :: t).take (maxScContent - 1) = word ++ ' ' :: t.take room := by
      rw [List.take_append, List.take_of_length_le (by omega), hroom, List.take_succ_cons]
    have split : words cSpace (word ++ ' ' :: t.take room) = word :: words cSpace (t.take room) := by
      apply words_cons _ filled (by decide)
      intro c hc space
      obtain rfl : c = ' ' := by simpa [cSpace] using space
      exact plain.2 hc
    simp only [hrest, Option.map_some, cut, split, maxToken, List.take_succ_cons,
      Option.some.injEq] at tokens
    rw [← tokens]
    rfl

theorem randomKeyLine_passes {host : Host} {client keyName line' : Text} :
    ¬ Passes host line' (randomKeyLine client keyName) := by
  obtain ⟨rest, word⟩ := randomKeyLine_word client keyName
  have first {name : Text} {args : List Text}
      (tokens : lineTokens (randomKeyLine client keyName) = some (name :: args)) :
      commandFunc name = some .ioevt := by
    rw [word] at tokens
    have head := lineTokens_word (by decide) (by decide) (by decide) tokens
    obtain rfl : name = "ioevt".toList := Option.some.inj head
    decide
  rintro (⟨name, typed, _, _, tokens, named, -⟩ | ⟨⟨name, args, tokens, named⟩, -⟩)
  · cases (first tokens).symm.trans named
  · cases (first tokens).symm.trans named

/-- `cmd_proc` nests deeper than any bound exactly when a line of a
configuration file is handed over in each line of an endless sequence. -/
theorem exec_endless_iff {host : Host} (drawing : host.Drawing) (line : Text) (w : World) :
    (∀ depth, exec host depth line w = .error .diverge) ↔
      ∃ chain : Nat → Text × World, chain 0 = (line, w) ∧ ∀ i,
        (cmdLines host).Calls (chain i) (chain (i + 1)) ∧
          Loads host (chain (i + 1)).1 (chain i).1 := by
  have endless : (∀ depth, exec host depth line w = .error .diverge) ↔
      (cmdLines host).Endless line w := by
    simp only [exec_eq_eval, Recursion.Endless]
    rfl
  rw [endless, (cmdLines_honest drawing).endless_iff_chain (line, w)]
  constructor
  · rintro ⟨chain, start, calls⟩
    refine ⟨chain, start, fun i => ⟨calls i, ?_⟩⟩
    rcases cmdProc_comes (calls i) with loads | ⟨-, client, index, pressed⟩
    · exact loads
    · have next := cmdProc_comes (calls (i + 1))
      rw [pressed] at next
      exact (randomKeyLine_passes next).elim
  · rintro ⟨chain, start, calls⟩
    exact ⟨chain, start, fun i => (calls i).1⟩

/-- A host with one configuration file, where every draw selects the key 9. -/
def loadHost (text : String) : Host :=
  { Host.willing (fun n => n) (fun n => some (n + 1))
      fun name => if name = "a".toList then some text.toList else none with
    rand := fun _ => [12632256] }

theorem loadHost_drawing (text : String) : (loadHost text).Drawing := fun _ =>
  ⟨12632256, List.mem_singleton.mpr rfl, nine_selects⟩

def loadLine : Text := "ac a".toList

theorem loadLine_tokens : lineTokens loadLine = some ["ac".toList, "a".toList] := by decide +kernel

/-- The line that loads it. -/
def loadConfig {text : String} (parsed : Parsed text.toList) : ConfigLine (loadHost text) where
  line := loadLine
  name := "ac".toList
  typed := "a".toList
  fileName := "a".toList
  file := text.toList
  tokens := loadLine_tokens
  named := by decide
  copied := by decide
  opened := by simp [loadHost, Host.willing]
  parsed := parsed

/-- A file whose one command loads it again. -/
theorem exec_endless_self :
    (∀ depth, exec (loadHost "ac a;\n") depth loadLine (.start fun _ => none) = .error .diverge) ∧
    ∃ chain : Nat → Text × World, chain 0 = (loadLine, .start fun _ => none) ∧ ∀ i,
      (cmdLines (loadHost "ac a;\n")).Calls (chain i) (chain (i + 1)) ∧
        Loads (loadHost "ac a;\n") (chain (i + 1)).1 (chain i).1 := by
  have parsed : Parsed "ac a;\n".toList := by
    have reads : scriptReads "ac a;\n".toList = ["ac a;\n".toList] := by decide +kernel
    rw [Parsed, reads]
    decide
  have content : scriptContent "ac a;\n".toList = [loadLine] := by decide +kernel
  have loops (depth : Nat) (w : World) :
      exec (loadHost "ac a;\n") depth loadLine w = .error .diverge := by
    induction depth generalizing w with
    | zero => rfl
    | succ depth ih =>
      have again := (loadConfig parsed).exec_config depth w
      simp only [loadConfig, content, runAll, ih] at again
      exact again
  exact ⟨fun depth => loops depth _,
    (exec_endless_iff (loadHost_drawing _) _ _).mp fun depth => loops depth _⟩

/-- Where the configuration files that a line leads to do not lead back, the
line comes to one result, whatever the state and however much deeper it may nest. -/
theorem exec_returns {host : Host} (drawing : host.Drawing) {line : Text}
    (acyclic : Acc (Loads host) line)
    (w : World) : ∃ depth, exec host depth line w ≠ .error .diverge ∧
      ∀ deeper, depth ≤ deeper → exec host deeper line w = exec host depth line w := by
  have pressed (client keyName : Text) : Acc (Passes host) (randomKeyLine client keyName) :=
    ⟨_, fun _ passes => (randomKeyLine_passes passes).elim⟩
  have descends : Acc (Passes host) line := by
    induction acyclic with
    | intro line _ ih =>
      constructor
      rintro line' (loads | ⟨-, client, index, rfl⟩)
      · exact ih line' loads
      · exact pressed client _
  have returns := (cmdLines_honest drawing).returns_of_acc (fun _ _ calls =>
    cmdProc_comes calls) descends w
  simp only [exec_eq_eval]
  exact Recursion.settles returns

theorem exec_returns_look : ∃ depth,
    exec (loadHost "look;\n") depth loadLine (.start fun _ => none) ≠ .error .diverge ∧
      ∀ deeper, depth ≤ deeper → exec (loadHost "look;\n") deeper loadLine (.start fun _ => none) =
        exec (loadHost "look;\n") depth loadLine (.start fun _ => none) := by
  have look (line' : Text) : ¬ Loads (loadHost "look;\n") line' "look".toList := by
    rintro ⟨name, typed, _, _, tokens, -⟩
    have alone : lineTokens "look".toList = some ["look".toList] := by decide +kernel
    have lengths := congrArg List.length (Option.some.inj (alone.symm.trans tokens))
    simp at lengths
  have only (line' : Text) (loads : Loads (loadHost "look;\n") line' loadLine) :
      line' = "look".toList := by
    obtain ⟨name, typed, fileName, file, tokens, -, copied, opened, inside⟩ := loads
    obtain ⟨rfl, rfl⟩ : "ac".toList = name ∧ "a".toList = typed := by
      simpa [loadLine_tokens] using tokens
    have copy : CString.snprintf maxFileName "a".toList = some "a".toList := by decide
    obtain rfl : "a".toList = fileName := Option.some.inj (copy.symm.trans copied)
    have stored : (loadHost "look;\n").files "a".toList = some "look;\n".toList := by decide
    obtain rfl : "look;\n".toList = file := Option.some.inj (stored.symm.trans opened)
    have content : scriptContent "look;\n".toList = ["look".toList] := by decide +kernel
    rw [content] at inside
    exact List.mem_singleton.mp inside
  apply exec_returns (loadHost_drawing _)
  constructor
  intro line' loads
  obtain rfl := only line' loads
  exact ⟨_, fun line'' loads => (look line'' loads).elim⟩

end AutoTest
