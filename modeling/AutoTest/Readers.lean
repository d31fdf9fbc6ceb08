import AutoTest.ScriptMeaning

/-!
# Two readers of one file

`autoConfig` passes a line on as soon as it has read it. A script thread stores
the lines first and then walks over them, where the number of lines is kept
less one and -1 stands for a failure as well.

* `autoConfig_passes`, `scriptCmdProcess_passes`: each of them passes on the
  entries of the file.
* `readers_agree`: so they pass on the same, where no entry is a loop.
-/

namespace AutoTest

open CString Program Cmd

variable {σ : Type} {cmd : Text → σ → σ}

/-- The operations of `autoConfig` with one argument, beyond those of a script
thread; every command returns. -/
def configuring (cmd : Text → σ → σ) : Interp cmdSig Fault (Playing σ)
  | .paramNum, s => .ok (1, s)
  | .setConfFileName _, s => .ok ((), s)
  | .fclose, s => .ok ((), s)
  | o, s => playing cmd o s

/-- The state after the commands of some lines. -/
def Playing.after (cmd : Text → σ → σ) (lines : List Text) (s : Playing σ) : Playing σ :=
  { s with rest := lines.foldl (fun rest line => cmd line rest) s.rest }

theorem autoConfigLine_run (line : Text) (s : Playing σ) :
    (autoConfigLine line).run (configuring cmd) s =
    .ok ((), s.after cmd (scriptLine line).toList) := by
  unfold autoConfigLine
  by_cases skip : line.head? = some '#' ∨ line.head? = some '\n'
  · have nothing : scriptLine line = none := by simp [scriptLine, skip]
    rw [if_pos skip, nothing]
    rfl
  · rw [if_neg skip]
    cases scriptLine line with
    | none => rfl
    | some cmdTmp => rfl

theorem autoConfigLines_run (reads : List Text) (s : Playing σ) :
    (each reads autoConfigLine).run (configuring cmd) s =
      .ok ((), s.after cmd (reads.filterMap scriptLine)) := by
  induction reads generalizing s with
  | nil => rfl
  | cons line reads ih =>
    rw [each, Prog.run_bind, autoConfigLine_run]
    simp only [ih, List.filterMap_cons]
    cases scriptLine line <;> rfl

/-- `autoConfig` passes on the entries of the file it opens. -/
theorem autoConfig_passes (cmdNum : Nat) {name file : Text} {s : Playing σ}
    (named : CString.snprintf maxFileName s.gCmdParam1 = some name)
    (hfile : s.files name = some file) :
    (autoConfig cmdNum).run (configuring cmd) s = .ok ((), s.after cmd (scriptContent file)) := by
  have counted : ¬ (1 : Int) ≠ 1 := by simp
  simp only [autoConfig, Cmd.paramNum, Cmd.param, Prog.op_bind, Prog.pure_bind',
    Prog.run, configuring,
    counted, ↓reduceIte, playing, Cmd.snprintf_some named, Cmd.setConfFileName, Cmd.fopen, hfile]
  rw [Prog.run_bind, autoConfigLines_run]
  rfl

/-- A file without entries: the result is that of a failure. -/
theorem scriptCmdProcess_empty (slot : Slot) {file : Text} {s : Playing σ}
    (hslot : atoi s.gCmdParam1 = slot) (hfile : s.files (s.scripts.gScriptName slot) = some file)
    (nothing : scriptContent file = []) :
    ∃ s', scriptCmdProcess.run (playing cmd) s = .ok ((), s') ∧ s'.rest = s.rest := by
  have fits : ([] : List Text).length ≤ maxScLine := by decide
  have quiet (t : Text) (s : Playing σ) : playing cmd (.print t) s = .ok ((), s) := rfl
  simp [scriptCmdProcess, Cmd.signal, Cmd.param, setCountOfScriptRun, Cmd.getScriptName, Cmd.fopen,
    Cmd.mallocScript, Cmd.mallocTemp, Cmd.copyScript,
    cpScriptContentToArray, Prog.run, playing, hslot, hfile, Playing.onScripts, Playing.answer,
    Prog.bind_assoc', reportLines_run quiet, nothing]
  rw [Scripts.copyScript_slot (by simp) fits]
  simp [failed, say, print, endScript, Cmd.freeScript, Cmd.setScriptThreadID,
    Cmd.pthreadExit, Prog.run, playing, Playing.onScripts]

/-- A script of plain lines is a list of items. -/
theorem plain_items (lines : List Text) (plain : ∀ line ∈ lines, ¬ beginsNoCase cmdLoop line) :
    ∃ items, scriptLines items = lines ∧ expand items = lines ∧ items.length = lines.length := by
  induction lines with
  | nil => exact ⟨[], rfl, rfl, rfl⟩
  | cons line lines ih =>
    obtain ⟨items, hlines, hexpand, hlength⟩ := ih fun l hl => plain l (by simp [hl])
    refine ⟨.line line (plain line (by simp)) :: items, ?_, ?_, ?_⟩
    · simpa [scriptLines, Item.lines] using hlines
    · simpa [expand, Item.expand] using hexpand
    · simpa using hlength

/-- A script thread passes on the entries of its file, where none is a loop. -/
theorem scriptCmdProcess_passes (slot : Slot) {file : Text} {s : Playing σ}
    (hslot : atoi s.gCmdParam1 = slot) (hfile : s.files (s.scripts.gScriptName slot) = some file)
    (few : (scriptContent file).length ≤ maxScLine)
    (plain : ∀ line ∈ scriptContent file, ¬ beginsNoCase cmdLoop line) :
    ∃ s', scriptCmdProcess.run (playing cmd) s = .ok ((), s') ∧
      s'.rest = (s.after cmd (scriptContent file)).rest := by
  by_cases nothing : scriptContent file = []
  · obtain ⟨s', hrun, hrest⟩ := @scriptCmdProcess_empty σ cmd slot file s hslot hfile nothing
    exact ⟨s', hrun, by simp [hrest, Playing.after, nothing]⟩
  · obtain ⟨items, hlines, hexpand, hlength⟩ := plain_items _ plain
    have loaded := Playing.filled_loaded slot few s
    have walk := @scriptLoop_items σ cmd slot (s.filled slot (scriptContent file)) items []
      (maxScLine + 1) (by omega) none (by rwa [hlines]) (by rwa [hlines])
    rw [hlines, hexpand] at walk
    rw [scriptCmdProcess_fills (fun _ _ _ => rfl) slot file s hslot hfile nothing few]
    simp only [List.nil_append, List.length_nil] at walk
    rw [walk]
    simp [endScript, Cmd.freeScript, Cmd.setScriptThreadID, Cmd.pthreadExit, Prog.run, playing,
      Playing.onScripts, Playing.advance, Playing.filled, Playing.after]

/-- Whatever the commands do, `autoConfig` on a file and a script thread on the
same file do it for the same lines in the same order. -/
theorem readers_agree (file : Text) (few : (scriptContent file).length ≤ maxScLine)
    (plain : ∀ line ∈ scriptContent file, ¬ beginsNoCase cmdLoop line) :
    ∃ lines : List Text, ∀ (σ : Type) (cmd : Text → σ → σ) (s : Playing σ),
      (∀ cmdNum name, CString.snprintf maxFileName s.gCmdParam1 = some name →
        s.files name = some file →
        ∃ s', (autoConfig cmdNum).run (configuring cmd) s = .ok ((), s') ∧
          s'.rest = lines.foldl (fun rest line => cmd line rest) s.rest) ∧
      ∀ slot : Slot, atoi s.gCmdParam1 = slot → s.files (s.scripts.gScriptName slot) = some file →
        ∃ s', scriptCmdProcess.run (playing cmd) s = .ok ((), s') ∧
          s'.rest = lines.foldl (fun rest line => cmd line rest) s.rest := by
  refine ⟨scriptContent file, fun σ cmd s => ⟨?_, ?_⟩⟩
  · intro cmdNum name named hfile
    exact ⟨_, autoConfig_passes cmdNum named hfile, rfl⟩
  · intro slot hslot hfile
    exact scriptCmdProcess_passes slot hslot hfile few plain

/-- A comment, an empty line, a long line, a line without `;` and no newline at the end. -/
def unevenFile : Text :=
  "#c\n\ndy 1; wait\n".toList ++ List.replicate 300 ' ' ++ "look; \nnothing\nshow;".toList

theorem readers_agree_uneven : ∃ lines : List Text, ∀ (σ : Type) (cmd : Text → σ → σ) (s : Playing σ),
    (∀ cmdNum name, CString.snprintf maxFileName s.gCmdParam1 = some name →
      s.files name = some unevenFile →
        ∃ s', (autoConfig cmdNum).run (configuring cmd) s = .ok ((), s') ∧
          s'.rest = lines.foldl (fun rest line => cmd line rest) s.rest) ∧
    ∀ slot : Slot, atoi s.gCmdParam1 = slot → s.files (s.scripts.gScriptName slot) = some unevenFile →
      ∃ s', scriptCmdProcess.run (playing cmd) s = .ok ((), s') ∧
        s'.rest = lines.foldl (fun rest line => cmd line rest) s.rest := by
  have few : (scriptContent unevenFile).length ≤ maxScLine := by decide +kernel
  have plain : (scriptContent unevenFile).all (fun line => !beginsNoCase cmdLoop line) = true := by
    decide +kernel
  exact readers_agree unevenFile few (by simpa using plain)

end AutoTest
