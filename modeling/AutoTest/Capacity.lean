import AutoTest.KeyEvents
import AutoTest.ScriptFile

/-!
# Tables of fixed size that a text fills

`cpScriptContentToArray` stores the commands of a file in an array of 500, and
`ioevt` the keys of a list in two arrays of ten. Both count as they go, and the
array of tokens of `ioevt` is shorter than what `getTokens` may store.

* `copyLines`: the reads of a script file, with the entries that are written.
* `script_fits_iff`: the array holds a file exactly when fgets cuts at most 500
  commands from it.
* `copyKeys`: the copies and loops of `ioevt`, whatever a directive in the list
  of keys writes.
* `keys_fit_iff`: the arrays hold a list of keys exactly when its formatted
  copies are defined.
-/

namespace AutoTest

open CString Strtok Program

/-! ## Scripts -/

/-- The loop of `cpScriptContentToArray` over the lines read: the entries that
are written, and `tmp_index` at the end. -/
def copyLines : List Text → Nat → List (Nat × Text) × Nat
  | [], tmpIndex => ([], tmpIndex)
  | temp :: reads, tmpIndex =>
    match scriptLine temp with
    | none => copyLines reads tmpIndex
    | some entry =>
      let (entries, last) := copyLines reads (tmpIndex + 1)
      ((tmpIndex, entry) :: entries, last)

/-- The entries written, and what the function returns. -/
structure ScriptCopy where
  scriptCont : List (Nat × Text)
  result : Int
  deriving DecidableEq, Repr

/-- `memory` tells whether the buffer for a line could be allocated. -/
def copyScriptFile (memory : Bool) (file : Text) : ScriptCopy :=
  if memory then
    let (entries, tmpIndex) := copyLines (scriptReads file) 0
    ⟨entries, tmpIndex - 1⟩
  else ⟨[], failed⟩

/-- What a file amounts to stays inside the array of lines. -/
structure ScriptFits (memory : Bool) (file : Text) : Prop where
  entries : ∀ e ∈ (copyScriptFile memory file).scriptCont, e.1 < maxScLine
  reported : maxScLine < (scriptContent file).length → (copyScriptFile memory file).result = failed ∨
    (copyScriptFile memory file).scriptCont.length ≤ maxScLine
  result : (copyScriptFile memory file).result < maxScLine

instance (memory : Bool) (file : Text) : Decidable (ScriptFits memory file) :=
  decidable_of_iff ((∀ e ∈ (copyScriptFile memory file).scriptCont, e.1 < maxScLine) ∧
    (maxScLine < (scriptContent file).length → (copyScriptFile memory file).result = failed ∨
      (copyScriptFile memory file).scriptCont.length ≤ maxScLine) ∧
    (copyScriptFile memory file).result < maxScLine)
    ⟨fun ⟨entries, reported, result⟩ => ⟨entries, reported, result⟩,
      fun ⟨entries, reported, result⟩ => ⟨entries, reported, result⟩⟩

/-- A piece that is stored. No piece of a line has a newline. -/
def IsCommand (piece : Text) : Prop := piece.head? ≠ some '#' ∧ ';' ∈ piece

instance (piece : Text) : Decidable (IsCommand piece) := inferInstanceAs (Decidable (_ ∧ _))

/-- The commands among the pieces that `fgets` cuts from the lines. -/
def commandPieces (file : Text) : Nat :=
  ((physicalLines file).flatMap pieces).countP fun p => IsCommand p

theorem copyLines_eq (reads : List Text) (tmpIndex : Nat) : copyLines reads tmpIndex =
    (((reads.filterMap scriptLine).zipIdx tmpIndex).map fun e => (e.2, e.1),
      tmpIndex + (reads.filterMap scriptLine).length) := by
  induction reads generalizing tmpIndex with
  | nil => rfl
  | cons temp reads ih =>
    rw [copyLines]
    cases hentry : scriptLine temp with
    | none => simp [ih, hentry]
    | some entry =>
      simp only [ih, List.filterMap_cons, hentry, List.zipIdx_cons, List.map_cons,
        List.length_cons, Prod.mk.injEq, true_and]
      omega

theorem copyScriptFile_memory (file : Text) : copyScriptFile true file =
    ⟨(scriptContent file).zipIdx.map fun e => (e.2, e.1), (scriptContent file).length - 1⟩ := by
  simp [copyScriptFile, copyLines_eq, scriptContent]

theorem scriptLine_isSome {piece : Text} (one : '\n' ∉ piece) :
    (scriptLine piece).isSome = decide (IsCommand piece) := by
  have start : piece.head? ≠ some '\n' := fun newline => one (List.mem_of_mem_head? newline)
  unfold scriptLine IsCommand
  by_cases comment : piece.head? = some '#'
  · simp [comment]
  · by_cases semicolon : ';' ∈ piece <;> simp [comment, start, semicolon]

theorem pieces_newline {line : Text} (one : '\n' ∉ line) : ∀ piece ∈ pieces line, '\n' ∉ piece := by
  intro piece hpiece newline
  apply one
  rw [← fgets_flatten (maxCmdLen - 1) line]
  exact List.mem_flatten.mpr ⟨piece, hpiece, newline⟩

theorem commandPieces_eq (file : Text) : (scriptContent file).length = commandPieces file := by
  have all : ∀ piece ∈ (physicalLines file).flatMap pieces,
      ((scriptLine piece).isSome = true ↔ decide (IsCommand piece) = true) := by
    intro piece hpiece
    obtain ⟨line, hline, inside⟩ := List.mem_flatMap.mp hpiece
    rw [scriptLine_isSome (pieces_newline (newline_not_mem hline) piece inside)]
  rw [scriptContent_pieces, ← List.filterMap_flatMap, List.length_filterMap_eq_countP, commandPieces,
    List.countP_congr all]

theorem ScriptFits.few {file : Text} (fits : ScriptFits true file) :
    (scriptContent file).length ≤ maxScLine := by
  have last := fits.result
  rw [copyScriptFile_memory] at last
  simp only at last
  omega

theorem scriptFits_of_few {file : Text} (few : (scriptContent file).length ≤ maxScLine) :
    ScriptFits true file := by
  refine ⟨?_, fun many => absurd few (Nat.not_le.mpr many), ?_⟩
  · rw [copyScriptFile_memory]
    intro e he
    obtain ⟨⟨entry, index⟩, listed, rfl⟩ := List.mem_map.mp he
    have inside := List.snd_lt_of_mem_zipIdx listed
    simp only
    omega
  · rw [copyScriptFile_memory]
    simp only
    omega

/-- Where memory is available, the function ends as the loop does if its
entries fit, and is undefined otherwise. -/
theorem cpScript_copies {host : Host} {callee : Text → World → Except Fault World} {w : World}
    {slot : Slot} (memory : host.malloc w.shared.calls = true)
    (buffer : w.shared.scripts.gScriptParam slot ≠ none) (file : Text) :
    if ScriptFits true file then
      ∃ w', (cpScriptContentToArray slot file).run (interp host callee) w =
          .ok ((copyScriptFile true file).result, w') ∧
        w'.shared.scripts.gScriptParam slot = some ((copyScriptFile true file).scriptCont.map (·.2))
    else (cpScriptContentToArray slot file).run (interp host callee) w = .error .bounds := by
  obtain ⟨s, same, hcopy⟩ := @cpScript_run _ callee _ memory slot file
  rw [hcopy]
  split
  · rename_i fits
    rw [Scripts.copyScript_slot (same ▸ buffer) fits.few, copyScriptFile_memory]
    refine ⟨_, rfl, ?_⟩
    simp [Function.comp_def]
  · rename_i long
    have many : maxScLine < (scriptContent file).length := by
      by_contra few
      exact long (scriptFits_of_few (Nat.not_lt.mp few))
    rw [Scripts.copyScript_many (same ▸ buffer) many]

/-- The array holds a file exactly when it has at most 500 commands, as they
are read, or no line can be read at all. -/
theorem script_fits_iff (memory : Bool) (file : Text) :
    ScriptFits memory file ↔ (memory = true → commandPieces file ≤ maxScLine) := by
  rw [← commandPieces_eq]
  constructor
  · rintro fits rfl
    exact fits.few
  · intro few
    cases memory with
    | false =>
      refine ⟨by simp [copyScriptFile], fun _ => .inl rfl, ?_⟩
      simp [copyScriptFile, failed, maxScLine]
    | true => exact scriptFits_of_few (few rfl)

/-- A recording of 501 times the same command. -/
def longScript : Text := (List.replicate 501 "look;\n".toList).flatten

/-- The last command is stored after the end of the array. -/
theorem longScript_overruns : ¬ ∀ memory file, ScriptFits memory file := by
  intro fits
  have few := (fits true longScript).few
  have many : (scriptContent longScript).length = 501 := by decide +kernel
  simp only [many, maxScLine] at few
  omega

/-! ## Keys -/

/-- What a `printf` function writes for a format, a directive without its
argument being answered in any way. -/
structure Printer where
  print : Text → Text
  follows : ∀ {fmt t : Text}, format fmt = some t → print fmt = t

namespace Printer

/-- The printer that answers every undefined format with this text. -/
def answering (t : Text) : Printer where
  print fmt := (format fmt).getD t
  follows h := by simp [h]

theorem answering_undefined {fmt : Text} (h : format fmt = none) (t : Text) :
    (answering t).print fmt = t := by
  simp [answering, h]

/-- `snprintf(buf, size, fmt)` -/
def snprintf (p : Printer) (size : Nat) (fmt : Text) : Text := (p.print fmt).take (size - 1)

theorem snprintf_some {p : Printer} {size : Nat} {fmt t : Text}
    (h : CString.snprintf size fmt = some t) : p.snprintf size fmt = t := by
  obtain ⟨u, hu, rfl⟩ := Option.map_eq_some_iff.mp h
  rw [snprintf, p.follows hu]

end Printer

/-- The loop of `ioevt` over the tokens from `index` on: the entries of
`ioevtObj.ioevt` that are written, up to the first unknown key. -/
def fillKeys : List Text → Nat → List (Nat × Text)
  | [], _ => []
  | k :: ks, index =>
    match getKeyCode k with
    | none => []
    | some keyCodeIndex => (index, (gKeyLib keyCodeIndex).keyCode) :: fillKeys ks (index + 1)

/-- The entries of `ioevt_param` and of `ioevtObj.ioevt` that are written. -/
structure KeyCopy where
  ioevtParam : List Nat
  ioevt : List (Nat × Text)
  deriving DecidableEq, Repr

/-- From the copy of the argument to `keyCodes` on. The `i`-th token is stored
in the `i`-th entry, and their number is tested after that. -/
def copyKeys (copy split : Printer) (param2 : Text) : KeyCopy :=
  let keyCodes := copy.snprintf (2 * maxIoevt) param2
  let tmp := split.snprintf maxScContent keyCodes
  let (offsets, tmp) := splitWords cComma maxToken (cells tmp) 0
  let ioevtNum : Int := offsets.length - 1
  ⟨List.range offsets.length, if ioevtNum ≥ maxIoevt then [] else fillKeys
    (offsets.map (stringAt tmp)) 0⟩

/-- At most ten tokens, no entry outside the arrays, and codes of four characters. -/
structure KeysFit (c : KeyCopy) : Prop where
  tokens : c.ioevtParam.length ≤ maxIoevt
  params : ∀ i ∈ c.ioevtParam, i < maxIoevt
  entries : ∀ e ∈ c.ioevt, e.1 < maxIoevt
  codes : ∀ e ∈ c.ioevt, e.2.length < maxKeyLenth

/-- The argument and its copy are formats without an open directive. -/
def CopiesDefined (param2 : Text) : Prop :=
  ∃ t u, CString.snprintf (2 * maxIoevt) param2 = some t ∧ CString.snprintf maxScContent t = some u

theorem gKeyLib_short (index : Nat) : (gKeyLib index).keyCode.length < maxKeyLenth := by
  by_cases empty : gKeyLib index = ⟨[], []⟩
  · rw [empty]
    decide
  · have fits := (keyTable_texts _ (gKeyLib_mem empty)).2.1
    have short := congrArg List.length fits
    simp only [List.length_take, maxKeyLenth] at short ⊢
    omega

theorem fillKeys_inside {ks : List Text} {index : Nat} :
    ∀ e ∈ fillKeys ks index, e.1 < index + ks.length ∧ e.2.length < maxKeyLenth := by
  induction ks generalizing index with
  | nil => simp [fillKeys]
  | cons k ks ih =>
    rw [fillKeys]
    cases getKeyCode k with
    | none => simp
    | some keyCodeIndex =>
      intro e he
      rcases List.mem_cons.mp he with rfl | later
      · exact ⟨by simp, gKeyLib_short keyCodeIndex⟩
      · obtain ⟨inside, short⟩ := ih e later
        exact ⟨by simp only [List.length_cons]; omega, short⟩

/-- Where all keys are known, the loop stores the codes that are sent. -/
theorem fillKeys_codes {ks codes : List Text} (known : keyCodes ks = .ok codes) (index : Nat) :
    (fillKeys ks index).map (fun e => e.2.take (maxKeyLenth - 1)) = codes := by
  induction ks generalizing codes index with
  | nil =>
    obtain rfl : [] = codes := by simpa [keyCodes] using known
    rfl
  | cons k ks ih =>
    simp only [keyCodes] at known
    rw [fillKeys]
    cases hk : getKeyCode k with
    | none => simp [hk] at known
    | some keyCodeIndex =>
      simp only [hk] at known
      cases hrest : keyCodes ks with
      | error e => simp [hrest] at known
      | ok rest =>
        obtain rfl : _ = codes := by simpa [hrest] using known
        simp [ih hrest (index + 1)]

/-- The tokens of a defined copy are the pieces that the handler looks up. -/
theorem copyKeys_lookedUp {param2 : Text} {ks : List Text} (h : lookedUp param2 = some ks)
    (copy split : Printer) : copyKeys copy split param2 = ⟨List.range ks.length, fillKeys ks 0⟩ := by
  have few := lookedUp_few h
  obtain ⟨t, ht, hpieces⟩ := Option.bind_eq_some_iff.mp h
  obtain ⟨u, hu, rfl⟩ := Option.map_eq_some_iff.mp hpieces
  have reads := splitWords_reads cComma maxToken u
  have whole : (words cComma u).take maxToken = words cComma u :=
    List.take_of_length_le (by simp only [maxIoevt, maxToken] at *; omega)
  rw [whole] at reads
  have count := congrArg List.length reads
  rw [List.length_map] at count
  have tested : ¬ ((words cComma u).length : Int) - 1 ≥ maxIoevt := by omega
  simp only [copyKeys, Printer.snprintf_some ht, Printer.snprintf_some hu, reads, count,
    tested, ↓reduceIte]

theorem keys_fit {param2 : Text} (defined : CopiesDefined param2) (copy split : Printer) :
    KeysFit (copyKeys copy split param2) := by
  obtain ⟨t, u, ht, hu⟩ := defined
  have h : lookedUp param2 = some (words cComma u) := by simp [lookedUp, ht, hu]
  have few := lookedUp_few h
  rw [copyKeys_lookedUp h]
  constructor
  · simpa using few
  · intro i hi
    have := List.mem_range.mp hi
    omega
  · intro e he
    have := (fillKeys_inside e he).1
    omega
  · intro e he
    exact (fillKeys_inside e he).2

/-- Eleven keys. -/
def elevenKeys : Text := "1,1,1,1,1,1,1,1,1,1,1".toList

/-- A directive without its argument can write more keys than there is room for. -/
theorem undefined_overruns {param2 : Text} (undefined : ¬ CopiesDefined param2) :
    ¬ KeysFit (copyKeys (.answering "%s".toList) (.answering elevenKeys) param2) := by
  have split : (Printer.answering elevenKeys).snprintf maxScContent
      ((Printer.answering "%s".toList).snprintf (2 * maxIoevt) param2) = elevenKeys := by
    cases ht : CString.snprintf (2 * maxIoevt) param2 with
    | none =>
      have open_directive : format param2 = none := by simpa [CString.snprintf] using ht
      rw [Printer.snprintf, Printer.snprintf, Printer.answering_undefined open_directive]
      decide
    | some t =>
      have open_directive : format t = none := by
        cases hu : format t with
        | none => rfl
        | some u =>
          have printed : CString.snprintf maxScContent t = some (u.take (maxScContent - 1)) := by
            simp [CString.snprintf, hu]
          exact absurd ⟨t, u.take (maxScContent - 1), ht, printed⟩ undefined
      rw [Printer.snprintf_some ht, Printer.snprintf, Printer.answering_undefined open_directive]
      decide
  intro fits
  have few := fits.tokens
  simp only [copyKeys, split, List.length_range] at few
  exact absurd few (by decide)

/-- Whatever an open directive writes, the arrays of `ioevt` hold the keys of
its argument, exactly when the copies of the argument are defined. -/
theorem keys_fit_iff (param2 : Text) :
    (∀ copy split, KeysFit (copyKeys copy split param2)) ↔ CopiesDefined param2 := by
  constructor
  · intro fits
    by_contra undefined
    exact undefined_overruns undefined (fits _ _)
  · exact keys_fit

/-- `ioevt 1 %%s p` passes on the argument `%s`. -/
theorem directive_overruns : ¬ ∀ param2 copy split, KeysFit (copyKeys copy split param2) := by
  intro fits
  have undefined : ¬ CopiesDefined "%s".toList := by
    rintro ⟨t, u, ht, -⟩
    cases ht
  exact undefined_overruns undefined (fits _ _ _)

end AutoTest
