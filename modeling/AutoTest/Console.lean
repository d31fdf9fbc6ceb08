import AutoTest.Nesting

/-!
# The console

`main` reads lines from the terminal, passes each one that is not empty to
`cmd_proc`, and ends with a line that begins with `quit`.

* `mainLoop_config_iff`: a file that is loaded and the same commands typed
  one after the other come to the same.
-/

namespace AutoTest

open CString Strtok Program Cmd

/-- `!strncmp(input, "quit", strlen("quit"))` -/
def quits (input : Text) : Bool := input.take 4 = "quit".toList

/-- The loop of `main` over the lines that `readline` returns before the end of
the input. -/
def mainLoop (host : Host) (depth : Nat) : List Text → World → Except Fault World
  | [], w => .ok w
  | input :: inputs, w =>
    if input.length = 0 then mainLoop host depth inputs w
    else
      match exec host depth input w with
      | .ok w => if quits input then .ok w else mainLoop host depth inputs w
      | .error f => .error f

/-- The lines that reach `cmd_proc`. -/
def processed : List Text → List Text
  | [] => []
  | input :: inputs =>
    if input.length = 0 then processed inputs
    else if quits input then [input]
    else input :: processed inputs

theorem mainLoop_eq (host : Host) (depth : Nat) (inputs : List Text) (w : World) :
    mainLoop host depth inputs w = runAll (exec host depth) (processed inputs) w := by
  induction inputs generalizing w with
  | nil => rfl
  | cons input inputs ih =>
    unfold mainLoop processed
    by_cases empty : input.length = 0
    · rw [if_pos empty, if_pos empty, ih]
    · rw [if_neg empty, if_neg empty]
      by_cases last : quits input = true
      · simp only [if_pos last, runAll]
        cases exec host depth input w <;> rfl
      · simp only [if_neg last, runAll, ih]
        cases exec host depth input w <;> rfl

/-! ## Typed or loaded -/

theorem commandFunc_entry {name : Text} {f : Func} (h : commandFunc name = some f) :
    ∃ e ∈ gCmdLib, e.func = f ∧ (e.cmdName = name ∨ e.nickName = name) := by
  obtain ⟨cmdNum, code, func⟩ := Option.map_eq_some_iff.mp h
  obtain ⟨inside, named, -⟩ := List.findIdx?_eq_some_iff_getElem.mp code
  refine ⟨gCmdLib[cmdNum], List.getElem_mem inside, ?_, by simpa using named⟩
  simpa [cmdEntry, List.getD_eq_getElem?_getD, List.getElem?_eq_getElem inside] using func

/-- The first token of a line that begins with `quit` does so too. -/
theorem quits_name {line name : Text} {args : List Text}
    (tokens : lineTokens line = some (name :: args))
    (leaves : quits line = true) : quits name = true := by
  have begins : line.take 4 = "quit".toList := of_decide_eq_true leaves
  have split : line = "quit".toList ++ line.drop 4 := by rw [← begins, List.take_append_drop]
  generalize line.drop 4 = more at split
  subst split
  unfold lineTokens CString.snprintf at tokens
  rw [format_plain_append (by decide)] at tokens
  cases hmore : format more with
  | none => simp [hmore] at tokens
  | some t =>
    have cut : ("quit".toList ++ t).take (maxScContent - 1) = "quit".toList ++ t.take 251 := by
      rw [List.take_append, List.take_of_length_le (by decide)]
      rfl
    have word : words cSpace ("quit".toList ++ t.take 251) = _ :=
      words_head (by simp [cSpace]) (by decide) (t.take 251)
    simp only [hmore, Option.map_some, cut, word, maxToken, List.take_succ_cons, Option.some.injEq,
      List.cons.injEq] at tokens
    rw [← tokens.1]
    exact decide_eq_true (List.take_left' rfl)

theorem ConfigLine.stays {host : Host} (l : ConfigLine host) : l.line.length ≠ 0 ∧
    quits l.line = false := by
  have named : ∀ e ∈ gCmdLib, e.func = .autoConfig → quits e.cmdName = false ∧
      quits e.nickName = false := by
    decide
  have first : quits l.name = false := by
    obtain ⟨e, he, func, same⟩ := commandFunc_entry l.named
    rcases same with same | same
    · exact same ▸ (named e he func).1
    · exact same ▸ (named e he func).2
  constructor
  · intro empty
    have tokens := l.tokens
    rw [List.length_eq_zero_iff.mp empty] at tokens
    cases tokens
  · apply Bool.eq_false_iff.mpr
    intro leaves
    exact Bool.false_ne_true (first.symm.trans (quits_name l.tokens leaves))

/-- What `main` comes to, however deep the lines nest. -/
def Dialogue (host : Host) (inputs : List Text) (w : World) (result : Except Fault World) : Prop :=
  result ≠ .error .diverge ∧ ∃ depth, mainLoop host depth inputs w = result

section Dialogue

variable {host : Host} {lines rest : List Text} {w : World} {result : Except Fault World}

theorem runAll_deeper {depth deeper : Nat} (le : depth ≤ deeper) (lines : List Text) (w : World)
    (ends : runAll (exec host depth) lines w ≠ .error .diverge) :
    runAll (exec host deeper) lines w = runAll (exec host depth) lines w := by
  have extends' : (cmdLines host).Extends (exec host depth) (exec host deeper) := by
    rw [exec_eq_eval, exec_eq_eval]
    exact Recursion.eval_extends le
  exact ((Recursion.runAll_extends extends' lines w).resolve_left ends).symm

theorem processed_append (typed : ∀ line ∈ lines, line.length ≠ 0 ∧ quits line = false) :
    processed (lines ++ rest) = lines ++ processed rest := by
  induction lines with
  | nil => rfl
  | cons line lines ih =>
    obtain ⟨filled, stays⟩ := typed line (by simp)
    rw [List.cons_append, processed, if_neg filled, stays, if_neg Bool.false_ne_true,
      ih fun other hother => typed other (by simp [hother]), List.cons_append]

/-- Loading a file and typing its commands come to the same, unless a command
is empty or would end `main`. -/
theorem mainLoop_config_iff (l : ConfigLine host)
    (typed : ∀ line ∈ scriptContent l.file, line.length ≠ 0 ∧ quits line = false) (inputs : List Text)
    (w : World) (result : Except Fault World) :
    Dialogue host (l.line :: inputs) w result ↔
      Dialogue host (scriptContent l.file ++ inputs) (l.start w) result := by
  have alone : processed ([l.line] ++ inputs) = [l.line] ++ processed inputs :=
    processed_append fun line hline => List.mem_singleton.mp hline ▸ l.stays
  have together : processed (scriptContent l.file ++ inputs) = scriptContent l.file ++
      processed inputs :=
    processed_append typed
  rw [List.singleton_append, List.singleton_append] at alone
  unfold Dialogue
  simp only [mainLoop_eq, alone, together, runAll_append, runAll]
  constructor
  · rintro ⟨ends, depth, hrun⟩
    refine ⟨ends, depth, ?_⟩
    cases depth with
    | zero => exact (ends hrun.symm).elim
    | succ depth =>
      rw [l.exec_config] at hrun
      have enough : runAll (exec host depth) (scriptContent l.file) (l.start w) ≠
          .error .diverge := by
        intro stuck
        rw [stuck] at hrun
        exact ends hrun.symm
      rw [runAll_deeper (Nat.le_succ depth) _ _ enough]
      cases commands : runAll (exec host depth) (scriptContent l.file) (l.start w) with
      | error f => simpa only [commands] using hrun
      | ok v => simpa only [commands] using hrun
  · rintro ⟨ends, depth, hrun⟩
    refine ⟨ends, depth + 1, ?_⟩
    rw [l.exec_config]
    cases commands : runAll (exec host depth) (scriptContent l.file) (l.start w) with
    | error f => simpa only [commands] using hrun
    | ok v =>
      simp only [commands] at hrun
      have enough : runAll (exec host depth) (processed inputs) v ≠ .error .diverge := hrun ▸ ends
      exact (runAll_deeper (Nat.le_succ depth) _ _ enough).trans hrun

theorem lookTwice_parsed : Parsed "#c\nlook; twice\nlook;".toList := by
  have lines : ((scriptReads "#c\nlook; twice\nlook;".toList).all
      fun read => read.head? = some '#' || read.head? = some '\n' || decide (';' ∈ read)) = true := by
    decide +kernel
  simpa [Parsed, or_assoc] using lines

def lookConfig : ConfigLine (loadHost "#c\nlook; twice\nlook;") := loadConfig lookTwice_parsed

/-- A file of two commands, and a third command typed after it. -/
theorem mainLoop_config_look : ∃ w,
    Dialogue (loadHost "#c\nlook; twice\nlook;") [loadLine, "quit".toList]
      (.start fun _ => none) (.ok w) ∧
      Dialogue (loadHost "#c\nlook; twice\nlook;") (scriptContent lookConfig.file ++ ["quit".toList])
        (lookConfig.start (.start fun _ => none)) (.ok w) := by
  have ends : (mainLoop (loadHost "#c\nlook; twice\nlook;") 2 [loadLine, "quit".toList]
      (.start fun _ => none)).toOption.isSome = true := by decide +kernel
  have typed : ((scriptContent lookConfig.file).all
      fun line => line.length ≠ 0 && quits line = false) = true := by decide +kernel
  cases hrun : mainLoop (loadHost "#c\nlook; twice\nlook;") 2 [loadLine, "quit".toList]
      (.start fun _ => none) with
  | error f =>
    rw [hrun] at ends
    cases ends
  | ok w =>
    have loaded : Dialogue (loadHost "#c\nlook; twice\nlook;") [loadLine, "quit".toList]
        (.start fun _ => none) (.ok w) := ⟨by simp, 2, hrun⟩
    exact ⟨w, loaded, (mainLoop_config_iff lookConfig (by simpa using typed) _ _ _).mp loaded⟩

end Dialogue

end AutoTest
