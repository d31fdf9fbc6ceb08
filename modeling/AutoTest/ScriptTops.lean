import AutoTest.Footprint

/-!
# From one line of a script to the next

What a script thread does depends on the lines of its script only where it
reads one at the top of its loop, and there on whether the line is a `loop`
line and on its count.

* `Top.reads_line`: what follows the line that is read there.
* `scriptCmdProcess_upto`: what comes before the first one.
-/

namespace AutoTest

open CString Program Cmd

/-- The count of a `loop` line is positive. -/
def LoopCounted (line : Text) : Prop :=
  beginsNoCase cmdLoop line = true → ∀ p, strstr cSpace line = some p → 0 < atoi (p.drop 1)

/-- The count of a `loop` line, if the line is one, has room in `parameter`. -/
def LoopFits (line : Text) : Prop :=
  beginsNoCase cmdLoop line = true → ∀ p, strstr cSpace line = some p → (p.drop 1).length < 10

instance (line : Text) : Decidable (LoopCounted line) :=
  inferInstanceAs (Decidable (_ → ∀ p ∈ strstr cSpace line, 0 < atoi (p.drop 1)))

instance (line : Text) : Decidable (LoopFits line) :=
  inferInstanceAs (Decidable (_ → ∀ p ∈ strstr cSpace line, (p.drop 1).length < 10))

/-- A script thread at the top of its loop. -/
structure Top where
  slot : Int
  scriptLineNum : Nat
  fuel : Nat
  index : Nat
  loopStart : Option Nat

def Top.program (top : Top) : Cmd Unit :=
  scriptLoop top.slot top.scriptLineNum top.fuel top.index top.loopStart

/-- The next operation reads a line. -/
def Top.Reads (top : Top) : Prop := 0 < top.fuel ∧ top.index ≤ top.scriptLineNum

/-- A line that is read next, at the top of the loop, is `good`. -/
def Cmd.NextLine (scripts : Scripts) (good : Text → Prop) (rest : Cmd Unit) : Prop :=
  ∀ top : Top, rest = top.program → top.Reads →
    ∀ line, scripts.scriptCmd top.slot top.index = .ok line → good line

theorem Top.program_eq {top : Top} (reads : top.Reads) :
    ∃ k, top.program = .op (.scriptCmd top.slot top.index) k := by
  obtain ⟨slot, scriptLineNum, fuel, index, loopStart⟩ := top
  obtain ⟨positive, inside⟩ : 0 < fuel ∧ index ≤ scriptLineNum := reads
  obtain ⟨fuel, rfl⟩ := Nat.exists_eq_succ_of_ne_zero positive.ne'
  have going : ¬ index > scriptLineNum := by omega
  unfold Top.program scriptLoop
  rw [if_neg going]
  exact ⟨_, rfl⟩

theorem nextLine_of_other {scripts : Scripts} {good : Text → Prop} {o : Op} {k : o.Res → Cmd Unit}
    (other : ∀ slot index, o ≠ .scriptCmd slot index) : Cmd.NextLine scripts good (.op o k) := by
  intro top shape reads
  obtain ⟨k', own⟩ := Top.program_eq reads
  cases shape.trans own
  exact absurd rfl (other _ _)

section Upto

variable {A : (o : Op) → o.Res → Prop} {P : Op → Prop} {ι : Type} {point : ι → Cmd Unit}

theorem Cmd.Touches.given {α : Type} {p : Cmd α} {groups : List Group} (touches : p.Touches groups)
    (plain : ∀ o : Op, o.group ∈ groups → P o) : p.Given A P :=
  .of_only (Prog.Only.mono plain touches)

theorem loopParameter_given (line : Text) (invalid : P (.fault .invalid))
    (overflow : P (.fault .overflow)) : (loopParameter line).Given A P := by
  unfold loopParameter
  cases strstr cSpace line with
  | none => exact ⟨invalid, fun r => r.elim⟩
  | some p => exact .ite (fun _ => trivial) fun _ => ⟨overflow, fun r => r.elim⟩

/-- A `loop` line with a count leads to the next top of the loop, as does a line
that is passed on. One without a count makes the thread clear its handle. -/
theorem Top.reads_line (top : Top) (reads : top.Reads) (plain : ∀ o : Op, o.group ∈ walkGroups → P o)
    (tops : ∀ next : Top, next.program.Upto A P point) :
    ∃ k, top.program = .op (.scriptCmd top.slot top.index) k ∧
      ∀ line, (beginsNoCase cmdLoop line = true → (loopParameter line).Given A P) →
        (¬ LoopCounted line →
          (setScriptThreadID top.slot 0 >>= fun _ => endScript top.slot).Upto A P point) →
          (k line).Upto A P point := by
  obtain ⟨slot, scriptLineNum, fuel, index, loopStart⟩ := top
  obtain ⟨positive, inside⟩ : 0 < fuel ∧ index ≤ scriptLineNum := reads
  obtain ⟨fuel, rfl⟩ := Nat.exists_eq_succ_of_ne_zero positive.ne'
  have going : ¬ index > scriptLineNum := by omega
  unfold Top.program scriptLoop
  rw [if_neg going]
  refine ⟨_, rfl, ?_⟩
  intro line copied uncounted
  apply Prog.Upto.ite
  · intro loop
    have given := copied loop
    unfold loopParameter at given ⊢
    cases found : strstr cSpace line with
    | none => exact .op (plain _ (by decide)) fun r => r.elim
    | some p =>
      simp only [found] at given ⊢
      unfold Cmd.sprintf at given ⊢
      split at given
      · rename_i fits
        rw [if_pos fits]
        apply Prog.Upto.ite
        · intro _
          apply Prog.Upto.bind ((scanBlock_touches slot _ _ _).given plain)
          intro block
          obtain ⟨loopStart, endLine⟩ := block
          cases loopStart with
          | none => exact .op (plain _ (by decide)) fun r => r.elim
          | some first =>
            apply Prog.Upto.bind ((playBlock_touches slot _ _ _).given plain)
            intro _
            exact tops ⟨slot, scriptLineNum, fuel, endLine + 1, some first⟩
        · intro uncountable
          apply Prog.Upto.step (plain _ (by decide))
          intro _
          apply uncounted
          intro counted
          exact uncountable (counted loop p found)
      · rename_i long
        rw [if_neg long]
        exact .op given.1 fun r => r.elim
  · intro _
    apply Prog.Upto.step (plain _ (by simp [Op.group, walkGroups]))
    intro again
    apply Prog.Upto.step (plain _ (by simp [Op.group, walkGroups]))
    intro _
    exact tops ⟨slot, scriptLineNum, fuel, index + 1, loopStart⟩

/-- Without a line to read the thread ends, or fails. -/
theorem Top.ends {top : Top} (done : ¬ top.Reads) {o : Op} {k : o.Res → Cmd Unit}
    (h : top.program = .op o k) (plain : ∀ o : Op, o.group ∈ walkGroups → P o)
    (clears : (setScriptThreadID top.slot 0 >>= fun _ => pthreadExit).Upto A P point) :
    P o ∧ ∀ r, (k r).Upto A P point := by
  obtain ⟨slot, scriptLineNum, fuel, index, loopStart⟩ := top
  cases fuel with
  | zero =>
    cases h
    exact ⟨plain _ (by decide), fun r => r.elim⟩
  | succ fuel =>
    have outside : index > scriptLineNum := by simpa [Top.Reads] using done
    have ended : scriptLoop slot scriptLineNum (fuel + 1) index loopStart = endScript slot :=
      if_pos outside
    cases ended.symm.trans h
    exact ⟨plain _ (by simp [Op.group, walkGroups]), fun _ => clears⟩

/-- The thread up to the first line, or its end. -/
theorem scriptCmdProcess_upto (plain : ∀ o : Op, o.group ∈ .tokens :: walkGroups → P o)
    (tops : ∀ top : Top, top.program.Upto A P point)
    (clears : ∀ slot, (setScriptThreadID slot 0 >>= fun _ => pthreadExit).Upto A P point) :
    scriptCmdProcess.Upto A P point := by
  have walk (o : Op) (listed : o.group ∈ walkGroups) : P o := plain o (.tail _ listed)
  unfold scriptCmdProcess
  apply Prog.Upto.step (walk _ (by decide))
  intro _
  apply Prog.Upto.step (plain _ (by decide))
  intro token
  generalize atoi token = slot
  have ends : (endScript slot).Upto A P point :=
    .step (walk _ (by simp [Op.group, walkGroups])) fun _ => clears slot
  apply Prog.Upto.step (walk _ (by simp [Op.group, walkGroups]))
  intro _
  apply Prog.Upto.step (walk _ (by simp [Op.group, walkGroups]))
  intro name
  apply Prog.Upto.step (walk _ (by simp [Op.group, walkGroups]))
  intro opened
  cases opened with
  | none =>
    apply Prog.Upto.step (walk _ (by decide))
    intro _
    exact clears slot
  | some text =>
    apply Prog.Upto.step (walk _ (by simp [Op.group, walkGroups]))
    intro allocated
    apply Prog.Upto.ite
    · intro _
      apply Prog.Upto.bind ((cpScriptContentToArray_touches slot text).given walk)
      intro scriptLineNum
      apply Prog.Upto.ite
      · intro _
        apply Prog.Upto.step (walk _ (by decide))
        intro _
        exact ends
      · intro _
        exact tops ⟨slot, scriptLineNum.toNat, maxScLine + 1, 0, none⟩
    · intro _
      exact ends

end Upto

end AutoTest
