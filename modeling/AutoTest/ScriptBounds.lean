import AutoTest.ScriptMeaning

/-!
# Scripts that are not well formed

The script thread does not look for a missing `start`, `end` or count, and its
loop variables outlive a block. Here it walks over arbitrary lines and is
watched: an access past the last line stored fails, and `freshLoop` forgets
the first line of a block when the next one begins.

* `blocksClosed`: every block has a count, a `start` line and an `end` line.
* `scan_iff`, `freshLoop_iff`: one search and one walk, on a suffix of the lines.
* `staysInside_iff`: the walk stays inside exactly when the blocks are closed.
-/

namespace AutoTest

open CString Program Cmd

variable {σ : Type}

/-- The operations of a script thread that may touch no line beyond `last`. -/
def watched (cmd : Text → σ → σ) (last : Nat) : Interp cmdSig Fault (Playing σ)
  | .scriptCmd slot index, s =>
    if last < index then .error .bounds else s.answer (s.scripts.scriptCmd slot index)
  | o, s => playing cmd o s

/-- `scriptLoop` with the first line of a block unset when the block begins. -/
def freshLoop (slot : Int) (scriptLineNum : Nat) : Nat → Nat → Cmd Unit
  | 0, _ => fault .diverge
  | fuel + 1, index =>
    if index > scriptLineNum then endScript slot
    else do
      let line ← scriptCmd slot index
      if beginsNoCase cmdLoop line then
        let loopTime := atoi (← loopParameter line)
        if loopTime > 0 then
          let (loopStart, endLine) ← scanBlock slot (maxScLine + 1) (index + 1) none
          match loopStart with
          | none => fault .invalid
          | some first =>
            playBlock slot first (endLine - 1) loopTime.toNat
            freshLoop slot scriptLineNum fuel (endLine + 1)
        else
          say "please spacify loop times!\n"
          setScriptThreadID slot 0
          endScript slot
      else
        Cmd.call (← scriptCmd slot index)
        freshLoop slot scriptLineNum fuel (index + 1)

/-- Whatever the commands do, the walk over the lines touches stored lines
only, ends each search, and uses what the same block has set; it would do the
same if every block began with the first line unset. -/
def StaysInside (lines : List Text) : Prop :=
  ∀ (σ : Type) (cmd : Text → σ → σ) (slot : Slot) (s : Playing σ), Loaded slot lines s →
    ∃ t, (scriptLoop slot (lines.length - 1) (maxScLine + 1) 0 none).run
        (watched cmd (lines.length - 1)) s = .ok ((), t) ∧
      (freshLoop slot (lines.length - 1) (maxScLine + 1) 0).run
        (watched cmd (lines.length - 1)) s = .ok ((), t)

/-- Every block has a count that fits in its buffer, a `start` line and an
`end` line. Inside of a block the mode says whether `start` was passed; a
count that is not positive ends the script. -/
def blocksClosed : Option Bool → List Text → Bool
  | none, [] => true
  | some _, [] => false
  | none, line :: rest =>
    if beginsNoCase cmdLoop line then
      match strstr cSpace line with
      | none => false
      | some p =>
        if (p.drop 1).length < 10 then
          if atoi (p.drop 1) > 0 then blocksClosed (some false) rest else true
        else false
    else blocksClosed none rest
  | some started, line :: rest =>
    if beginsNoCase loopEndWord line then started && blocksClosed none rest
    else blocksClosed (some (started || beginsNoCase loopStartWord line)) rest

/-! ## A walk that misses nothing it forgets -/

/-- What a search finds without a line set before, it finds with any. -/
theorem scanBlock_sets {h : Interp cmdSig Fault σ} {slot : Int} {fuel index : Nat} {s t : σ}
    {first endLine : Nat}
    (hrun : (scanBlock slot fuel index none).run h s = .ok ((some first, endLine), t))
    (before : Option Nat) :
    (scanBlock slot fuel index before).run h s = .ok ((some first, endLine), t) := by
  induction fuel generalizing index s with
  | zero =>
    obtain ⟨r, -⟩ := Prog.run_op_inv hrun
    exact r.elim
  | succ fuel ih =>
    obtain ⟨line, s₁, hline, hrun⟩ := Prog.run_bind_inv hrun
    obtain ⟨line', s₂, hline', hrun⟩ := Prog.run_bind_inv hrun
    apply (Prog.run_bind_ok hline).trans
    apply (Prog.run_bind_ok hline').trans
    by_cases isStart : beginsNoCase loopStartWord line
    · simpa only [isStart, ↓reduceIte] using hrun
    · simp only [isStart, Bool.false_eq_true, ↓reduceIte] at hrun ⊢
      by_cases isEnd : beginsNoCase loopEndWord line'
      · simp [isEnd] at hrun
      · simp only [isEnd, Bool.false_eq_true, ↓reduceIte] at hrun ⊢
        exact ih hrun

/-- A walk that never misses the line it forgets is the walk of the thread. -/
theorem scriptLoop_of_freshLoop {h : Interp cmdSig Fault σ} {slot : Int} {last fuel index : Nat}
    {s t : σ} (hrun : (freshLoop slot last fuel index).run h s = .ok ((), t)) (before : Option Nat) :
    (scriptLoop slot last fuel index before).run h s = .ok ((), t) := by
  induction fuel generalizing index before s with
  | zero =>
    obtain ⟨r, -⟩ := Prog.run_op_inv hrun
    exact r.elim
  | succ fuel ih =>
    unfold freshLoop at hrun
    unfold scriptLoop
    by_cases past : index > last
    · simpa only [past, ↓reduceIte] using hrun
    · simp only [past, ↓reduceIte] at hrun ⊢
      obtain ⟨line, s₁, hline, hrun⟩ := Prog.run_bind_inv hrun
      rw [Prog.run_bind_ok hline]
      by_cases isLoop : beginsNoCase cmdLoop line
      · simp only [isLoop, ↓reduceIte] at hrun ⊢
        obtain ⟨arg, s₂, harg, hrun⟩ := Prog.run_bind_inv hrun
        rw [Prog.run_bind_ok harg]
        by_cases more : atoi arg > 0
        · simp only [more, ↓reduceIte] at hrun ⊢
          obtain ⟨⟨loopStart, endLine⟩, s₃, hscan, hrun⟩ := Prog.run_bind_inv hrun
          cases loopStart with
          | none =>
            obtain ⟨r, -⟩ := Prog.run_op_inv hrun
            exact r.elim
          | some first =>
            obtain ⟨_, s₄, hplay, hrun⟩ := Prog.run_bind_inv hrun
            rw [Prog.run_bind_ok (scanBlock_sets hscan before), Prog.run_bind_ok hplay]
            exact ih hrun (some first)
        · simpa only [more, ↓reduceIte] using hrun
      · simp only [isLoop, Bool.false_eq_true, ↓reduceIte] at hrun ⊢
        obtain ⟨line', s₂, hline', hrun⟩ := Prog.run_bind_inv hrun
        obtain ⟨_, s₃, hcall, hrun⟩ := Prog.run_bind_inv hrun
        rw [Prog.run_bind_ok hline', Prog.run_bind_ok hcall]
        exact ih hrun before

/-! ## The watched operations -/

section Watched

variable {cmd : Text → σ → σ} {slot : Slot} {lines : List Text} {s : Playing σ}

theorem drop_cons {index : Nat} {line : Text} {rest : List Text}
    (here : lines.drop index = line :: rest) :
    index < lines.length ∧ lines.getD index [] = line ∧ lines.drop (index + 1) = rest := by
  have inside : index < lines.length := by
    by_contra outside
    simp [List.drop_eq_nil_of_le (Nat.le_of_not_lt outside)] at here
  rw [List.drop_eq_getElem_cons inside] at here
  obtain ⟨hline, hrest⟩ := List.cons.inj here
  exact ⟨inside, by simpa [List.getElem?_eq_getElem inside] using hline, hrest⟩

theorem scriptCmd_inside (loaded : Loaded slot lines s) {index : Nat}
    (inside : index < lines.length) :
    (scriptCmd slot index).run (watched cmd (lines.length - 1)) s = .ok (lines.getD index [], s) := by
  have room : index < maxScLine := lt_of_lt_of_le inside loaded.fits
  have stored : ¬ lines.length - 1 < index := by omega
  simp [scriptCmd, Prog.run, watched, stored,
    Scripts.scriptCmd_slot loaded.buffer room, Playing.answer]

theorem scriptCmd_outside {index : Nat} (outside : lines.length - 1 < index) :
    (scriptCmd slot index).run (watched cmd (lines.length - 1)) s = .error .bounds := by
  simp [scriptCmd, Prog.run, watched, outside]

theorem call_watched (line : Text) (loaded : Loaded slot lines s) :
    ∃ t, (Cmd.call line).run (watched cmd (lines.length - 1)) s = .ok ((), t) ∧ Loaded slot lines t :=
  ⟨_, rfl, ⟨loaded.buffer, loaded.fits, loaded.nonneg, loaded.capped⟩⟩

/-- Stored lines are passed on. -/
theorem playLines_watched {count index : Nat} (inside : index + count ≤ lines.length)
    (loaded : Loaded slot lines s) :
    ∃ t, (playLines slot count index).run (watched cmd (lines.length - 1)) s = .ok ((), t) ∧
      Loaded slot lines t := by
  induction count generalizing index s with
  | zero => exact ⟨s, rfl, loaded⟩
  | succ count ih =>
    obtain ⟨mid, hcall, next⟩ := @call_watched σ cmd slot lines s (lines.getD index []) loaded
    obtain ⟨t, hplay, last⟩ := @ih _ (index + 1) (by omega) next
    refine ⟨t, ?_, last⟩
    rw [playLines, Prog.run_bind_ok (scriptCmd_inside loaded (by omega)),
      Prog.run_bind_ok hcall, hplay]

theorem count_watched (loaded : Loaded slot lines s) :
    ∃ t, (getCountOfScriptRun slot >>= fun count => setCountOfScriptRun slot (int32 (count + 1))).run
        (watched cmd (lines.length - 1)) s = .ok ((), t) ∧ Loaded slot lines t := by
  refine ⟨s.advance cmd slot [] 1, ?_, loaded.advance cmd [] 1⟩
  simp [getCountOfScriptRun, setCountOfScriptRun, Prog.run, watched, playing, Playing.answer,
    Playing.onScripts, Playing.advance,
    Scripts.setCountOfScriptRun_next loaded.nonneg loaded.capped, - Scripts.setCountOfScriptRun_slot]

/-- A block between two stored lines plays its rounds. -/
theorem playBlock_watched {first last : Nat} (inside : last < lines.length) (n : Nat)
    (loaded : Loaded slot lines s) :
    ∃ t, (playBlock slot first last n).run (watched cmd (lines.length - 1)) s = .ok ((), t) ∧
      Loaded slot lines t := by
  induction n generalizing s with
  | zero => exact ⟨s, rfl, loaded⟩
  | succ n ih =>
    by_cases empty : last < first
    · exact ⟨s, by simp [playBlock, empty], loaded⟩
    · obtain ⟨played, hplay, loaded⟩ := @playLines_watched σ cmd slot lines s (last + 1 - first) first
        (by omega) loaded
      obtain ⟨counted, hcount, loaded⟩ := @count_watched σ cmd slot lines played loaded
      obtain ⟨t, hrest, loaded⟩ := ih loaded
      refine ⟨t, ?_, loaded⟩
      simp only [playBlock, empty, ↓reduceIte]
      rw [Prog.run_bind_ok hplay, ← Prog.bind_assoc', Prog.run_bind_ok hcount, hrest]

end Watched

/-! ## Which walks stay inside -/

section Walk

variable {cmd : Text → σ → σ} {slot : Slot} {lines : List Text} {s : Playing σ}

/-- `p` runs to its end among `lines`. -/
def Ends (cmd : Text → σ → σ) (lines : List Text) (p : Cmd Unit) (s : Playing σ) : Prop :=
  ∃ t, p.run (watched cmd (lines.length - 1)) s = .ok ((), t)

theorem ends_bind {α : Type} {p : Cmd α} {f : α → Cmd Unit} {a : α} {t : Playing σ}
    (hp : p.run (watched cmd (lines.length - 1)) s = .ok (a, t)) :
    Ends cmd lines (p >>= f) s ↔ Ends cmd lines (f a) t := by
  simp only [Ends, Prog.run_bind_ok hp]

theorem not_ends_fault {f : Fault} : ¬ Ends cmd lines (fault f) s := by
  rintro ⟨t, hrun⟩
  obtain ⟨r, -⟩ := Prog.run_op_inv hrun
  exact r.elim

theorem not_ends_fault_bind {α : Type} {f : Fault} {K : α → Cmd Unit} :
    ¬ Ends cmd lines (fault f >>= K) s := by
  rintro ⟨t, hrun⟩
  obtain ⟨a, mid, hfault, -⟩ := Prog.run_bind_inv hrun
  obtain ⟨r, -⟩ := Prog.run_op_inv hfault
  exact r.elim

/-- One search: what follows it decides, where it leaves at an `end` line, and
it does not leave otherwise. -/
theorem scan_iff (loaded : Loaded slot lines s) (some_line : 0 < lines.length)
    {K : Option Nat × Nat → Cmd Unit}
    {suffix : List Text} {index fuel : Nat} (here : lines.drop index = suffix)
    (room : suffix.length < fuel) {loopStart : Option Nat}
    (unset : ∀ endLine, ¬ Ends cmd lines (K (none, endLine)) s)
    (set : ∀ first endLine rest, endLine < lines.length → lines.drop (endLine + 1) = rest →
      rest.length < suffix.length →
      (Ends cmd lines (K (some first, endLine)) s ↔ blocksClosed none rest)) :
    Ends cmd lines (scanBlock slot fuel index loopStart >>= K) s ↔
      blocksClosed (some loopStart.isSome) suffix := by
  induction suffix generalizing index fuel loopStart with
  | nil =>
    obtain ⟨fuel, rfl⟩ : ∃ f, fuel = f + 1 := ⟨fuel - 1, by omega⟩
    have outside : lines.length ≤ index := List.drop_eq_nil_iff.mp here
    have stuck : ¬ Ends cmd lines (scanBlock slot (fuel + 1) index loopStart >>= K) s := by
      rintro ⟨t, hrun⟩
      obtain ⟨found, mid, hscan, -⟩ := Prog.run_bind_inv hrun
      obtain ⟨line, mid, hline, -⟩ := Prog.run_bind_inv hscan
      rw [scriptCmd_outside (by omega)] at hline
      cases hline
    simpa [blocksClosed] using stuck
  | cons line rest ih =>
    obtain ⟨fuel, rfl⟩ : ∃ f, fuel = f + 1 := ⟨fuel - 1, by simp at room; omega⟩
    obtain ⟨inside, hline, hrest⟩ := drop_cons here
    simp only [scanBlock, Prog.bind_assoc']
    rw [ends_bind (scriptCmd_inside loaded inside), ends_bind (scriptCmd_inside loaded inside), hline]
    simp only [blocksClosed]
    by_cases isEnd : beginsNoCase loopEndWord line
    · have notStart : ¬ beginsNoCase loopStartWord line := fun h => start_not_end h isEnd
      simp only [isEnd, notStart, Bool.false_eq_true, ↓reduceIte]
      cases loopStart with
      | none => simpa using unset index
      | some first => simpa using set first index rest inside hrest (by simp)
    · simp only [isEnd, Bool.false_eq_true, ↓reduceIte]
      have set' : ∀ first endLine after, endLine < lines.length → lines.drop (endLine + 1) = after →
          after.length < rest.length →
          (Ends cmd lines (K (some first, endLine)) s ↔ blocksClosed none after) := by
        intro first endLine after inside hafter short
        exact set first endLine after inside hafter (Nat.lt_succ_of_lt short)
      rw [ih hrest (by simpa using room) set']
      by_cases isStart : beginsNoCase loopStartWord line <;> simp [isStart]

theorem endScript_ends : Ends cmd lines (endScript slot) s := by
  simp [Ends, endScript, Cmd.freeScript, Cmd.setScriptThreadID, Cmd.pthreadExit, Prog.run, watched,
    playing, Playing.onScripts]

theorem refuse_ends : Ends cmd lines (do
    say "please spacify loop times!\n"
    setScriptThreadID slot 0
    endScript slot) s := by
  simp [Ends, say, print, endScript, Cmd.freeScript, Cmd.setScriptThreadID, Cmd.pthreadExit, Prog.run,
    watched, playing, Playing.onScripts]

/-- The walk over the lines left. The induction is on their number, as a block
takes several of them. -/
theorem freshLoop_iff (loaded : Loaded slot lines s) (some_line : 0 < lines.length)
    {suffix : List Text} {index fuel : Nat} (here : lines.drop index = suffix)
    (room : suffix.length < fuel) :
    Ends cmd lines (freshLoop slot (lines.length - 1) fuel index) s ↔ blocksClosed none suffix := by
  induction hsize : suffix.length using Nat.strong_induction_on generalizing suffix index fuel s with
  | _ size ih =>
    obtain ⟨fuel, rfl⟩ : ∃ f, fuel = f + 1 := ⟨fuel - 1, by omega⟩
    cases suffix with
    | nil =>
      have past : index > lines.length - 1 := by
        have outside : lines.length ≤ index := List.drop_eq_nil_iff.mp here
        omega
      simpa [freshLoop, past, blocksClosed] using endScript_ends
    | cons line rest =>
      obtain ⟨inside, hline, hrest⟩ := drop_cons here
      have stay : ¬ index > lines.length - 1 := by omega
      simp only [freshLoop, stay, ↓reduceIte]
      rw [ends_bind (scriptCmd_inside loaded inside), hline]
      simp only [blocksClosed]
      by_cases isLoop : beginsNoCase cmdLoop line
      · simp only [isLoop, ↓reduceIte]
        unfold loopParameter
        cases hspace : strstr cSpace line with
        | none => exact iff_of_false not_ends_fault_bind Bool.false_ne_true
        | some p =>
          simp only [Cmd.sprintf]
          by_cases short : (p.drop 1).length < 10
          · simp only [short, ↓reduceIte, Prog.pure_bind', Prog.pure_eq]
            by_cases more : atoi (p.drop 1) > 0
            · rw [if_pos more, if_pos more]
              have after : ∀ first endLine left, endLine < lines.length →
                  lines.drop (endLine + 1) = left → left.length < rest.length →
                  (Ends cmd lines (playBlock slot first (endLine - 1) (atoi (p.drop 1)).toNat >>=
                    fun _ => freshLoop slot (lines.length - 1) fuel (endLine + 1)) s ↔
                      blocksClosed none left) := by
                intro first endLine left inside hleft shorter
                obtain ⟨mid, hplay, next⟩ := @playBlock_watched σ cmd slot lines s first (endLine - 1)
                  (by omega) (atoi (p.drop 1)).toNat loaded
                rw [ends_bind hplay]
                exact ih left.length (by simp at hsize; omega) next hleft (by simp at room; omega) rfl
              apply scan_iff loaded some_line hrest ?_ (fun _ => not_ends_fault) after
              have size := loaded.fits
              have left := congrArg List.length hrest
              simp only [List.length_drop] at left
              omega
            · rw [if_neg more, if_neg more]
              simpa using refuse_ends
          · rw [if_neg short, if_neg short]
            exact iff_of_false not_ends_fault_bind Bool.false_ne_true
      · simp only [isLoop, Bool.false_eq_true, ↓reduceIte]
        obtain ⟨mid, hcall, next⟩ := @call_watched σ cmd slot lines s line loaded
        rw [ends_bind (scriptCmd_inside loaded inside), hline, ends_bind hcall]
        exact ih rest.length (by simp at hsize; omega) next hrest (by simp at room; omega) rfl

end Walk

/-- A script of up to 500 lines stays inside exactly when its blocks are closed. -/
theorem staysInside_iff (lines : List Text) (some_line : 1 ≤ lines.length)
    (fits : lines.length ≤ maxScLine) : StaysInside lines ↔ blocksClosed none lines := by
  constructor
  · intro inside
    have loaded := Playing.filled_loaded 0 fits collecting
    obtain ⟨t, -, hrun⟩ := inside _ (fun line passed => passed ++ [line]) 0 _ loaded
    exact (freshLoop_iff loaded some_line rfl (Nat.lt_succ_of_le fits)).mp ⟨t, hrun⟩
  · intro blocks σ cmd slot s loaded
    have whole : lines.drop 0 = lines := rfl
    obtain ⟨t, hrun⟩ := (freshLoop_iff loaded some_line whole (Nat.lt_succ_of_le fits)).mpr blocks
    exact ⟨t, scriptLoop_of_freshLoop hrun none, hrun⟩

theorem staysInside_twoBlocks : StaysInside (["loop 2", "start", "look", "end", "Loop 1", "start",
    "end", "show", "loop x", "loop"].map String.toList) :=
  (staysInside_iff _ (by decide) (by decide)).mpr (by decide +kernel)

/-- A block without an `end` line, at the end of a script. -/
def openBlock : List Text := ["loop 2", "start", "look"].map String.toList

theorem staysInside_openBlock : ¬ StaysInside openBlock := by
  intro inside
  have few : openBlock.length ≤ maxScLine := by decide
  obtain ⟨t, hrun, -⟩ := inside _ (fun line passed => passed ++ [line]) 0 _
    (Playing.filled_loaded 0 few collecting)
  have fails : ((scriptLoop (0 : Slot) (openBlock.length - 1) (maxScLine + 1) 0 none).run
      (watched (fun line passed => passed ++ [line]) (openBlock.length - 1))
      (collecting.filled 0 openBlock)).toOption.isSome = false := by
    decide +kernel
  rw [hrun] at fails
  cases fails

/-- The whole thread, on a file whose blocks are closed. -/
theorem scriptCmdProcess_inside (cmd : Text → σ → σ) (slot : Slot) (file : Text) (s : Playing σ)
    (hslot : atoi s.gCmdParam1 = slot) (hfile : s.files (s.scripts.gScriptName slot) = some file)
    (some_line : 1 ≤ (scriptContent file).length) (fits : (scriptContent file).length ≤ maxScLine)
    (blocks : blocksClosed none (scriptContent file)) :
    ∃ t, scriptCmdProcess.run (watched cmd ((scriptContent file).length - 1)) s = .ok ((), t) := by
  have loaded := Playing.filled_loaded slot fits s
  have whole : (scriptContent file).drop 0 = scriptContent file := rfl
  obtain ⟨t, hrun⟩ := (@freshLoop_iff σ cmd _ _ _ loaded some_line _ _ _ whole
    (Nat.lt_succ_of_le fits)).mpr blocks
  have same : ∀ o s, (∀ slot index, o ≠ .scriptCmd slot index) →
      watched cmd ((scriptContent file).length - 1) o s = playing cmd o s := by
    intro o s other
    cases o with
    | scriptCmd slot index => exact absurd rfl (other slot index)
    | _ => rfl
  rw [scriptCmdProcess_fills same slot file s hslot hfile (List.length_pos_iff.mp some_line) fits]
  exact ⟨t, scriptLoop_of_freshLoop hrun none⟩

end AutoTest
