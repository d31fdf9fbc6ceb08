import AutoTest.HandOver

/-!
# What a script thread takes and gives back

A run is the list of the operations that `scriptCmdProcess` performs with
their answers, up to its `pthread_exit` or to the signal that ends it.

* `ScriptRun.files`: every file that was opened stays open.
* `ScriptRun.slotBlock`: a thread that comes to its end has freed its block once.
* `script_releases_iff`: the runs that leave nothing behind.
-/

namespace AutoTest

open CString Program Cmd

/-- The block that the slot of the thread points to. -/
inductive SlotBlock where
  | null
  | held
  | freed
  | twice
  deriving DecidableEq, Repr

/-- Freeing a null pointer does nothing. -/
def SlotBlock.free : SlotBlock → SlotBlock
  | .null => .null
  | .held => .freed
  | .freed => .twice
  | .twice => .twice

/-- Freed once, if there was one. -/
def SlotBlock.Released (b : SlotBlock) : Prop := b = .null ∨ b = .freed

structure Taken where
  /-- the script files that are open -/
  files : Nat
  block : SlotBlock
  deriving DecidableEq, Repr

def Taken.after : Entry cmdSig → Taken → Taken
  | ⟨.fopen _, some _⟩, s => { s with files := s.files + 1 }
  | ⟨.fclose, _⟩, s => { s with files := s.files - 1 }
  | ⟨.mallocScript _, allocated⟩, s => { s with block := if allocated then .held else .null }
  | ⟨.freeScript _, _⟩, s => { s with block := s.block.free }
  | _, s => s

def taken (t : List (Entry cmdSig)) : Taken := t.foldl (fun s e => Taken.after e s) ⟨0, .null⟩

/-- The file is closed and the block freed once. -/
structure Released (t : List (Entry cmdSig)) : Prop where
  file : (taken t).files = 0
  block : (taken t).block.Released

def opens : Entry cmdSig → Bool
  | ⟨.fopen _, some _⟩ => true
  | _ => false

/-- `t` leads the thread to where `rest` is left of it. -/
abbrev ScriptRun (t : List (Entry cmdSig)) (rest : Cmd Unit) : Prop :=
  Prog.Path scriptCmdProcess t rest

section Files

theorem Taken.after_files {e : Entry cmdSig} (stays : e.1 ≠ .fclose) (s : Taken) :
    (s.after e).files = s.files + if opens e then 1 else 0 := by
  obtain ⟨o, r⟩ := e
  cases o with
  | fopen name => cases r <;> rfl
  | fclose => exact absurd rfl stays
  | _ => rfl

theorem foldl_files {t : List (Entry cmdSig)} (stays : ∀ e ∈ t, e.1 ≠ .fclose) (s : Taken) :
    (t.foldl (fun s e => Taken.after e s) s).files = s.files + t.countP opens := by
  induction t generalizing s with
  | nil => rfl
  | cons e t ih =>
    have here := Taken.after_files (stays e (by simp)) s
    have later := ih (fun e he => stays e (by simp [he])) (Taken.after e s)
    rw [List.foldl_cons, later, here, List.countP_cons]
    omega

theorem scriptCmdProcess_keeps : scriptCmdProcess.Only (· ≠ Op.fclose) := by
  rw [scriptCmdProcess_eq]
  apply Prog.Only.bind_op (by simp)
  intro _
  apply Prog.Only.bind_op (by simp)
  intro token
  apply scriptBody_atSlot.mono
  rintro o atSlot rfl
  exact atSlot

/-- Nothing but the end of the process closes a script file. -/
theorem ScriptRun.files {t : List (Entry cmdSig)} {rest : Cmd Unit} (run : ScriptRun t rest) :
    (taken t).files = t.countP opens := by
  have files := foldl_files (scriptCmdProcess_keeps.path run) ⟨0, .null⟩
  rw [taken, files, Nat.zero_add]

/-- So the files of all runs add up. -/
theorem scriptRuns_files {ts : List (List (Entry cmdSig))}
    (runs : ∀ t ∈ ts, ∃ rest, ScriptRun t rest) :
    (taken ts.flatten).files = (ts.map fun t => t.countP opens).sum := by
  have stays : ∀ e ∈ ts.flatten, e.1 ≠ .fclose := by
    intro e he
    obtain ⟨t, ht, he⟩ := List.mem_flatten.mp he
    obtain ⟨rest, run⟩ := runs t ht
    exact scriptCmdProcess_keeps.path run e he
  have files := foldl_files stays ⟨0, .null⟩
  rw [taken, files, Nat.zero_add, List.countP_flatten]

end Files

section Blocks

variable {slot : Int} {s : Taken}

theorem Op.Works.passed {o : Op} (h : o.Works slot) (r : o.Res) : Taken.after ⟨o, r⟩ s = s := by
  cases o <;> first | exact h.elim | rfl

theorem works_watched {α : Type} {p : Cmd α} (h : p.Only (Op.Works slot)) :
    p.Watched Taken.after (· = s) s :=
  .of_only (h.mono fun _ works r => works.passed r)

/-- The monitor is content with the block. -/
abbrev Cmd.Frees (p : Cmd Unit) (s : Taken) : Prop :=
  p.Watched Taken.after (fun s => s.block.Released) s

variable (slot) in
theorem works_frees {α : Type} {p : Cmd α} {f : α → Cmd Unit} (h : p.Only (Op.Works slot))
    (hf : ∀ a, (f a).Frees s) : (p >>= f).Frees s := by
  apply (works_watched h).bind
  rintro a _ rfl
  exact hf a

theorem endScript_frees (released : s.block.free.Released) : (endScript slot).Frees s :=
  fun _ _ _ => released

theorem scriptLoop_frees (held : s.block = .held) (scriptLineNum fuel index : Nat)
    (loopStart : Option Nat) : (scriptLoop slot scriptLineNum fuel index loopStart).Frees s := by
  have released : s.block.free.Released := by
    rw [held]
    exact .inr rfl
  induction fuel generalizing index loopStart with
  | zero => exact fun r => r.elim
  | succ fuel ih =>
    unfold scriptLoop
    apply Prog.Watched.ite (fun _ => endScript_frees released)
    intro inside line
    apply Prog.Watched.ite
    · intro loops
      apply works_frees slot (loopParameter_works line)
      intro parameter
      apply Prog.Watched.ite
      · intro positive
        apply works_frees slot (scanBlock_works _ _ _)
        intro block
        obtain ⟨loopStart, endLine⟩ := block
        cases loopStart with
        | none => exact fun r => r.elim
        | some first =>
          apply works_frees slot (playBlock_works _ _ _)
          intro _
          exact ih _ _
      · intro never _ _
        exact endScript_frees released
    · intro single line _
      exact ih _ _

theorem scriptBody_frees (null : s.block = .null) : (scriptBody slot).Frees s := by
  intro _ name opened
  cases opened with
  | none => exact fun _ _ _ => .inl null
  | some text =>
    intro allocated
    cases allocated with
    | false => exact endScript_frees (.inl rfl)
    | true =>
      apply works_frees slot (cpScriptContentToArray_works text)
      intro scriptLineNum
      apply Prog.Watched.ite
      · intro empty _
        exact endScript_frees (.inr rfl)
      · intro filled
        exact scriptLoop_frees rfl _ _ _ _

/-- Whatever the exit, if the thread comes to it. -/
theorem ScriptRun.slotBlock {t : List (Entry cmdSig)} (run : ScriptRun t (.pure ())) :
    (taken t).block.Released := by
  have watched : scriptCmdProcess.Frees ⟨0, .null⟩ := by
    intro _ token
    exact scriptBody_frees rfl
  exact watched.path run

end Blocks

/-! ## Runs that leave nothing -/

def Op.Allocates : Op → Bool
  | .mallocScript _ => true
  | _ => false

/-- Without a file the thread does not get as far as `malloc`. -/
theorem scriptCmdProcess_unopened :
    scriptCmdProcess.Given (fun o r => opens ⟨o, r⟩ = false) fun o => o.Allocates = false := by
  refine ⟨rfl, fun _ _ => ⟨rfl, fun token _ => ⟨rfl, fun _ _ => ⟨rfl, fun name _ => ⟨rfl, ?_⟩⟩⟩⟩⟩
  intro opened unopened
  cases opened with
  | none => exact .of_only ⟨rfl, fun _ => ⟨rfl, fun _ => ⟨rfl, fun _ => trivial⟩⟩⟩
  | some text => cases unopened

theorem Taken.after_block {e : Entry cmdSig} (none : e.1.Allocates = false) {s : Taken}
    (null : s.block = .null) : (s.after e).block = .null := by
  obtain ⟨o, r⟩ := e
  cases o with
  | fopen name => cases r <;> exact null
  | mallocScript slot => cases none
  | freeScript slot => exact congrArg SlotBlock.free null
  | _ => exact null

theorem foldl_block {t : List (Entry cmdSig)} (none : ∀ e ∈ t, e.1.Allocates = false) {s : Taken}
    (null : s.block = .null) : (t.foldl (fun s e => Taken.after e s) s).block = .null := by
  induction t generalizing s with
  | nil => exact null
  | cons e t ih =>
    exact ih (fun e he => none e (by simp [he])) (Taken.after_block (none e (by simp)) null)

/-- A run has given back what it took when it did not get its file, however it
ends, and in no other case. -/
theorem script_releases_iff {t : List (Entry cmdSig)} {rest : Cmd Unit} (run : ScriptRun t rest) :
    Released t ↔ ∀ e ∈ t, opens e = false := by
  have files := run.files
  constructor
  · intro released
    rw [released.file] at files
    intro e he
    simpa using List.countP_eq_zero.mp files.symm e he
  · intro unopened
    have none : ∀ e ∈ t, e.1.Allocates = false := scriptCmdProcess_unopened.path run unopened
    have few : t.countP opens = 0 := List.countP_eq_zero.mpr fun e he => by simp [unopened e he]
    exact ⟨files.trans few, .inl (foldl_block none rfl)⟩

/-- The run of a script without a command. -/
def emptyRun : List (Entry cmdSig) :=
  [⟨.signal, ()⟩, ⟨.param 1, "3".toList⟩, ⟨.setCountOfScriptRun 3 0, ()⟩,
    ⟨.getScriptName 3, "s".toList⟩,
    ⟨.fopen "s".toList, some []⟩, ⟨.mallocScript 3, true⟩, ⟨.mallocTemp, true⟩,
      ⟨.copyScript 3 [], ()⟩,
    ⟨.print "cp error\n".toList, ()⟩, ⟨.freeScript 3, ()⟩, ⟨.setScriptThreadID 3 0, ()⟩,
      ⟨.pthreadExit, ()⟩]

theorem emptyRun_run : ScriptRun emptyRun (.pure ()) := by
  repeat' constructor

theorem script_releases_empty : Released emptyRun ↔ ∀ e ∈ emptyRun, opens e = false :=
  script_releases_iff emptyRun_run

/-- The run ends by itself and leaves its file open. -/
theorem emptyRun_leaks : ¬ ∀ t : List (Entry cmdSig), ScriptRun t (.pure ()) → Released t := by
  intro released
  have closed := (released emptyRun emptyRun_run).file
  exact absurd closed (by decide)

end AutoTest
