import AutoTest.Console
import AutoTest.Deferral

/-!
# Lines one at a time

In the steps of a process, a line that hands over lines is one step and each of
the lines handed over another. In `main`, the inner lines are processed before
the handler of the outer line goes on.

* `Op.printed`: an operation reads nothing of what was printed, and adds to it.
* `cmdLines_defers`: after it has handed over its first line, a handler prints,
  closes its file and sleeps.
* `Process.console_steps`: so what `main` comes to, a run of the process comes
  to, but for the order of the printed texts.
-/

namespace AutoTest

open CString Program Cmd

/-! ## Output -/

def Op.printed : Op → Shared → List Text
  | .print t, _ => [t]
  | .printConfFileName, s => ["autoConf:  ".toList ++ s.gConfFileName ++ "\n".toList]
  | _, _ => []

def Shared.withOut (out : List Text) (s : Shared) : Shared := { s with out := out }

def World.withOut (out : List Text) (w : World) : World := { w with shared := w.shared.withOut out }

section Output

variable {host : Host}

theorem reading_map {α σ τ : Type} (g : σ → τ) (s : σ) (x : Except Fault α) :
    reading (g s) x = (reading s x).map fun y => (y.1, g y.2) := by
  cases x <;> rfl

theorem writing_map {σ τ υ : Type} (g : σ → υ) (put : τ → σ) (x : Except Fault τ) :
    writing (fun t => g (put t)) x = (writing put x).map fun y => (y.1, g y.2) := by
  cases x <;> rfl

theorem Shared.pthreadCreate_out (s : Shared) (out : List Text) :
    (s.withOut out).pthreadCreate host =
      ((s.pthreadCreate host).1, (s.pthreadCreate host).2.withOut out) := by
  simp only [Shared.pthreadCreate, Shared.withOut, Shared.asked]
  cases host.pthreadCreate s.calls with
  | none => rfl
  | some id => by_cases taken : id = 0 ∨ s.joinable id <;> simp [taken]

theorem Shared.setCountOfSuccessCall_out (s : Shared) (out : List Text) (type : Nat) (n value : Int) :
    (s.withOut out).setCountOfSuccessCall type n value =
      (s.setCountOfSuccessCall type n value).map (Shared.withOut out) := by
  simp only [Shared.setCountOfSuccessCall, Shared.withOut]
  by_cases negative : value < 0
  · simp [negative, Shared.withOut, Except.map]
  · cases clientIndex n with
    | none => simp [negative, Except.map]
    | some i => by_cases inside : type < maxCallType <;>
        simp [negative, inside, Shared.withOut, Except.map]

theorem sharedStep_out (o : Op) (out : List Text) (s : Shared) :
    sharedStep host o (s.withOut out) =
      (sharedStep host o s).map fun x => (x.1, x.2.withOut (out ++ o.printed s)) := by
  cases o with
  | getClientIpAddr n =>
    simp only [sharedStep, Shared.withOut]
    cases s.net.getClientIpAddr n <;> simp [Except.map, Op.printed]
  | pthreadCreate routine =>
    simp only [sharedStep, s.pthreadCreate_out, Except.map, Op.printed, List.append_nil]
  | pthreadKill id =>
    by_cases alive : s.joinable id = true <;>
      simp [sharedStep, Shared.withOut, alive, Except.map, Op.printed]
  | pthreadJoin id =>
    by_cases alive : s.joinable id = true <;>
      simp [sharedStep, Shared.pthreadJoin, Shared.withOut, alive, writing, Except.map, Op.printed]
  | setCountOfSuccessCall type n value =>
    simp only [sharedStep, Op.printed, List.append_nil, ← writing_map, s.setCountOfSuccessCall_out]
    cases s.setCountOfSuccessCall type n value <;> rfl
  | msgsnd m =>
    have same : (s.withOut out).sends host = s.sends host := rfl
    simp only [sharedStep, same]
    by_cases sent : s.sends host = true <;>
      simp [sent, Shared.withOut, Shared.asked, Except.map, Op.printed]
  | mallocScript slot =>
    by_cases room : host.malloc s.calls = true
    · cases made : s.scripts.mallocScript slot <;>
        simp [sharedStep, Shared.withOut, Shared.asked, room, made, Except.map, Op.printed]
    · cases freed : s.scripts.freeScript slot <;>
        simp [sharedStep, Shared.withOut, Shared.asked, room, freed, Except.map, Op.printed]
  | _ =>
    simp only [Op.printed, List.append_nil, sharedStep, ← reading_map, ← writing_map]
    rfl

theorem interp_out (host : Host) (callee : Text → World → Except Fault World) {o : Op}
    (own : ∀ line, o ≠ .call line) (out : List Text) (w : World) :
    interp host callee o (w.withOut out) =
      (interp host callee o w).map fun x => (x.1, x.2.withOut (out ++ o.printed w.shared)) := by
  cases o with
  | call line => exact absurd rfl (own line)
  | setParams line =>
    simp only [interp, Op.printed, List.append_nil, ← writing_map]
    rfl
  | param i =>
    simp only [interp, Op.printed, List.append_nil, ← reading_map]
    rfl
  | paramNum => simp [interp, Op.printed, World.withOut, Except.map]
  | getTokens inStr delim =>
    simp only [interp, World.withOut]
    cases w.params.getTokens inStr delim <;> simp [Except.map, Op.printed]
  | _ =>
    simp only [interp, World.withOut, sharedStep_out]
    cases sharedStep host _ w.shared <;> rfl

end Output

/-! ## Worlds but for the order of their output -/

structure World.Agrees (w v : World) : Prop where
  rest : v = w.withOut v.shared.out
  printed : w.shared.out.Perm v.shared.out

def World.prints (ts : List Text) (w : World) : World := w.withOut (w.shared.out ++ ts)

theorem World.agrees_equivalence : Equivalence World.Agrees where
  refl w := ⟨rfl, .refl _⟩
  symm := by
    rintro w v ⟨rest, printed⟩
    rw [rest]
    exact ⟨rfl, rest ▸ printed.symm⟩
  trans := by
    rintro w v u ⟨first, printed⟩ ⟨second, printed'⟩
    refine ⟨?_, printed.trans printed'⟩
    rw [second, first]
    rfl

section Agreement

variable {host : Host} {w v : World} {ts : List Text}

/-- An operation that is no call does the same after more was printed. -/
theorem cmdLines_respects (host : Host) (ts : List Text) :
    (cmdLines host).Respects fun w v => (w.prints ts).Agrees v := by
  intro o name w v agrees
  have own (line : Text) : o ≠ .call line := by
    rintro rfl
    cases name
  have before := interp_out host (fun _ => .ok) own w.shared.out w
  have after := interp_out host (fun _ => .ok) own v.shared.out w
  have here : w.withOut w.shared.out = w := rfl
  have there : w.withOut v.shared.out = v := agrees.rest.symm
  rw [here] at before
  rw [there] at after
  simp only [cmdLines]
  cases result : interp host (fun _ => .ok) o w with
  | error f =>
    rw [result] at after
    rw [after]
    exact .error f
  | ok x =>
    rw [result] at before after
    rw [after]
    have out : x.2.shared.out = w.shared.out ++ o.printed w.shared :=
      congrArg (fun y => y.2.shared.out) (Except.ok.inj before)
    refine .ok ⟨rfl, rfl, ?_⟩
    show (x.2.shared.out ++ ts).Perm (v.shared.out ++ o.printed w.shared)
    calc x.2.shared.out ++ ts
      _ = w.shared.out ++ (o.printed w.shared ++ ts) := by rw [out, List.append_assoc]
      List.Perm _ (w.shared.out ++ (ts ++ o.printed w.shared)) := List.perm_append_comm.append_left _
      _ = w.shared.out ++ ts ++ o.printed w.shared := (List.append_assoc ..).symm
      List.Perm _ (v.shared.out ++ o.printed w.shared) := agrees.printed.append_right _

theorem cmdLines_agrees (host : Host) : (cmdLines host).Respects World.Agrees := by
  have silent (w : World) : w.prints [] = w := by simp [World.prints, World.withOut, Shared.withOut]
  simpa only [silent] using cmdLines_respects host []

theorem cmdLines_moves (host : Host) (ts : List Text) :
    (cmdLines host).Moves World.Agrees (World.prints ts) where
  equal w v agrees := by
    refine ⟨?_, agrees.printed.append_right ts⟩
    rw [agrees.rest]
    rfl
  past := cmdLines_respects host ts

end Agreement

/-! ## Handlers that call last -/

/-- What a handler still does once it has handed over a line. -/
def Op.Late : Op → Prop
  | .print _ => True
  | .fclose => True
  | .usleep => True
  | _ => False

section Handlers

variable {host : Host} {α : Type} {cmdNum : Nat}

abbrev Defers (host : Host) (p : Cmd α) : Prop := p.CallsLast (cmdLines host).IsCall Op.Late

theorem silent_own {p : Cmd α} (silent : p.Silent) : p.Only fun o => ¬ (cmdLines host).IsCall o := by
  apply silent.mono
  rintro o ho call
  cases o with
  | call line => exact ho
  | _ => exact call rfl

theorem silent_defers {p : Cmd α} (silent : p.Silent) : Defers host p := .of_only (silent_own silent)

theorem hands_over (line : Text) : (cmdLines host).IsCall (.call line) := Option.some_ne_none line

theorem autoConfigLine_last (read : Text) :
    (autoConfigLine read).Only fun o => (cmdLines host).IsCall o ∨ o.Late := by
  unfold autoConfigLine
  split
  · trivial
  · cases scriptLine read with
    | none => exact ⟨.inr trivial, fun _ => trivial⟩
    | some cmdTmp => exact ⟨.inl (hands_over cmdTmp), fun _ => trivial⟩

theorem autoConfigLines_last (reads : List Text) :
    (each reads autoConfigLine).Only fun o => (cmdLines host).IsCall o ∨ o.Late := by
  induction reads with
  | nil => trivial
  | cons read reads ih => exact (autoConfigLine_last read).bind fun _ => ih

theorem autoConfig_defers (cmdNum : Nat) : Defers host (autoConfig cmdNum) := by
  apply Prog.CallsLast.bind_op (fun call => call rfl)
  intro gParamNum
  apply Prog.CallsLast.ite
  · exact fun _ => silent_defers (wrongParameter_plain cmdNum).silent
  intro _
  apply Prog.CallsLast.bind_op (fun call => call rfl)
  intro typed
  apply Prog.CallsLast.bind (snprintf_only (fun _ call => call rfl) _ _)
  intro name
  apply Prog.CallsLast.bind_op (fun call => call rfl)
  intro _
  apply Prog.CallsLast.bind_op (fun call => call rfl)
  intro file
  cases file with
  | none => exact .last trivial
  | some file => exact .last ((autoConfigLines_last _).bind fun _ => ⟨.inr trivial, fun _ => trivial⟩)

theorem sendRandomKey_defers (randomKeyNum : Int) (draws : List Nat) :
    Defers host (sendRandomKey randomKeyNum draws) := by
  apply Prog.CallsLast.ite
  · exact fun _ => silent_defers (say_plain _).silent
  intro _
  apply Prog.CallsLast.bind (silent_own ((drawKey_keeps randomKeyNum draws).mono fun _ ho => ho.1))
  intro index
  apply Prog.CallsLast.bind_op (fun call => call rfl)
  intro client
  apply Prog.CallsLast.bind (silent_own (sprintf_plain _ _).silent)
  intro cmdRandomKey
  exact .last ⟨.inl (hands_over cmdRandomKey), fun _ => ⟨.inr trivial, fun _ => trivial⟩⟩

theorem randomKey_defers (cmdNum : Nat) : Defers host (randomKey cmdNum) := by
  apply Prog.CallsLast.bind_op (fun call => call rfl)
  intro gParamNum
  apply Prog.CallsLast.ite
  · exact fun _ => silent_defers (wrongParameter_plain cmdNum).silent
  intro _
  apply Prog.CallsLast.bind_op (fun call => call rfl)
  intro draws
  cases draws with
  | nil => exact silent_defers ⟨trivial, fun r => r.elim⟩
  | cons r rs => exact sendRandomKey_defers _ rs

theorem Func.run_defers (f : Func) (cmdNum : Nat) : Defers host (f.run cmdNum) := by
  by_cases hands : f = .autoConfig ∨ f = .randomKey
  · rcases hands with rfl | rfl
    · exact autoConfig_defers cmdNum
    · exact randomKey_defers cmdNum
  · have aside : Group.nested ∉ f.groups := by cases f <;> simp [Func.groups] at hands ⊢
    apply Prog.CallsLast.of_only
    apply Prog.Only.mono _ (f.run_touches cmdNum)
    intro o inside call
    cases o with
    | call line => exact aside inside
    | _ => exact call rfl

theorem cmdProc_defers (line : Text) : Defers host (cmdProc line) := by
  apply Prog.CallsLast.bind_op (fun call => call rfl)
  intro _
  apply Prog.CallsLast.bind_op (fun call => call rfl)
  intro name
  unfold dispatch
  cases getCmdCode name with
  | none => exact silent_defers (say_plain _).silent
  | some cmdNum => exact Func.run_defers _ cmdNum

theorem cmdLines_defers (host : Host) : (cmdLines host).Defers World.Agrees Op.Late where
  equiv := World.agrees_equivalence
  respects := cmdLines_agrees host
  body := cmdProc_defers
  late o last := by
    have still : (cmdLines host).Moves World.Agrees id :=
      ⟨fun _ _ agrees => agrees, cmdLines_agrees host⟩
    cases o with
    | print t => exact ⟨rfl, (), World.prints [t], cmdLines_moves host [t], fun _ => rfl⟩
    | fclose => exact ⟨rfl, (), id, still, fun _ => rfl⟩
    | usleep => exact ⟨rfl, (), id, still, fun _ => rfl⟩
    | _ => exact last.elim

end Handlers

/-! ## The steps of a process -/

namespace Process

variable {host : Host} {line : Text}

theorem operate_main (o : Op) (s : Process) :
    (operate host none line o s).map (fun x => (x.1, x.2.world)) =
      (interp host (fun _ => .ok) o s.world).mapError Halt.fault := by
  cases o with
  | pthreadCreate routine =>
    simp only [operate, interp, sharedStep]
    cases s.world.shared.pthreadCreate host with
    | mk made shared => cases made <;> rfl
  | pthreadKill id =>
    by_cases alive : s.world.shared.joinable id = true <;>
      simp [operate, interp, sharedStep, alive, Except.map, Except.mapError]
  | pthreadJoin id =>
    simp only [operate, interp, sharedStep]
    cases s.world.shared.pthreadJoin id <;> rfl
  | msgsnd m =>
    simp only [operate]
    cases interp host (fun _ => .ok) (.msgsnd m) s.world <;> rfl
  | _ =>
    simp only [operate]
    cases interp host (fun _ => .ok) _ s.world <;> rfl

/-- The main thread does to the world what `cmd_proc` does, the lines that it
hands over left out. -/
theorem handle_main (line : Text) (s : Process) :
    (handle host none line s).map Process.world = (cmdLines host).outer line s.world := by
  have run : ((cmdProc line).run (operate host none line) s).map (fun x => (x.1, x.2.world)) =
      ((cmdProc line).run (interp host fun _ => .ok) s.world).mapError Halt.fault :=
    Prog.run_image Process.world Halt.fault operate_main (cmdProc line) s
  have outer : (cmdLines host).outer line s.world =
      ((cmdProc line).run (interp host fun _ => .ok) s.world).map Prod.snd := rfl
  rw [outer]
  unfold handle
  rcases image_cases run with ⟨f, fails, image⟩ | ⟨x, ends, image⟩
  · rw [fails, image]
    rfl
  · rw [ends, image]
    rfl

theorem runAll_main (lines : List Text) (s : Process) :
    (runAll (step host) (lines.map (.line none)) s).map Process.world =
      runAll (cmdLines host).outer lines s.world := by
  induction lines generalizing s with
  | nil => rfl
  | cons line lines ih =>
    have here : (handle host none line s).map Process.world = (cmdLines host).outer line s.world :=
      handle_main line s
    have own : step host (.line none line) s = handle host none line s := rfl
    simp only [List.map_cons, runAll, own, ← here]
    cases handle host none line s with
    | error f => rfl
    | ok t => exact ih t

/-- What `main` comes to, a run of its process comes to in which every line is
a step, but for the order of the printed texts. The lines are those typed, in
their order, and between them lines that these hand over. -/
theorem console_steps {inputs : List Text} {s : Process} {result : Except Fault World}
    (typed : Dialogue host inputs s.world result) :
    ∃ lines, (processed inputs).Sublist lines ∧
      (∀ line ∈ lines, ∃ input ∈ processed inputs, Relation.ReflTransGen (Passes host) line input) ∧
      Alike World.Agrees result
        ((runAll (step host) (lines.map (.line none)) s).map Process.world) := by
  obtain ⟨ends, depth, rfl⟩ := typed
  rw [mainLoop_eq, exec_eq_eval] at ends ⊢
  obtain ⟨lines, sub, led, alike⟩ :=
    (cmdLines_defers host).unnested depth (processed inputs) s.world ends
  refine ⟨lines, sub, fun line hline => ?_, ?_⟩
  · obtain ⟨input, hinput, chain⟩ := led line hline
    have passes : (cmdLines host).Below ≤ Passes host := by
      rintro line' line ⟨_, _, calls⟩
      exact cmdProc_comes calls
    exact ⟨input, hinput, Relation.ReflTransGen.mono passes _ _ chain⟩
  · rw [runAll_main]
    exact alike

/-- A file whose first line has no command, and whose second one has. -/
theorem console_steps_look :
    ∃ lines, (processed [loadLine, "quit".toList]).Sublist lines ∧
      (∀ line ∈ lines, ∃ input ∈ processed [loadLine, "quit".toList],
        Relation.ReflTransGen (Passes (loadHost "look\nlook;\n")) line input) ∧
      Alike World.Agrees
        (mainLoop (loadHost "look\nlook;\n") 2 [loadLine, "quit".toList] (.start fun _ => none))
        ((runAll (step (loadHost "look\nlook;\n")) (lines.map (.line none))
          (idle (.start fun _ => none))).map Process.world) := by
  have returns : (mainLoop (loadHost "look\nlook;\n") 2 [loadLine, "quit".toList]
      (.start fun _ => none)).toOption.isSome = true := by decide +kernel
  apply console_steps (s := idle (.start fun _ => none))
  refine ⟨fun stuck => ?_, 2, rfl⟩
  rw [stuck] at returns
  cases returns

end Process

end AutoTest
