import AutoTest.Script
import AutoTest.World

/-!
# Reading a script file

The lines of a script pass through a buffer of 255 characters, so `fgets`
hands a longer line out in pieces, and every piece is filtered as if it were a
line of its own.

* `expectedEntries`: what the lines of the file stand for.
* `scriptReads_pieces`: what is read is the pieces of the lines, one line after
  the other.
* `readsScript_iff`: the file is stored as its lines stand exactly when every
  line is well read.
-/

namespace AutoTest

open CString Program

def physicalLines (file : Text) : List Text := file.splitOnP (· = '\n')

/-- The text up to the first `;`, of a line that has one and is no comment. -/
def lineEntry (line : Text) : Option Text :=
  if line = [] ∨ line.head? = some '#' then none
  else if ';' ∈ line then some (line.takeWhile (· ≠ ';'))
  else none

def expectedEntries (file : Text) : List Text := (physicalLines file).filterMap lineEntry

/-- The pieces of a line, none longer than the buffer. -/
def pieces (line : Text) : List Text := fgets (maxCmdLen - 1) line

/-- No piece after the first yields an entry, and a line that has a `;` and is
no comment has one in its first piece. -/
def WellRead (line : Text) : Prop :=
  (∀ piece ∈ (pieces line).tail, scriptLine piece = none) ∧
    (line.head? = some '#' ∨ ';' ∉ line ∨ ';' ∈ line.take (maxCmdLen - 1))

/-! ## The reads of a file are those of its lines -/

/-- Along the lines of a file, the last of which no newline ends. -/
theorem lines_induction {motive : Text → Prop} (last : ∀ line, '\n' ∉ line → motive line)
    (cons : ∀ line rest, '\n' ∉ line → motive rest → motive (line ++ '\n' :: rest)) (file : Text) :
    motive file := by
  induction hn : file.length using Nat.strong_induction_on generalizing file with
  | _ n ih =>
    by_cases newline : '\n' ∈ file
    · obtain ⟨rest, split⟩ := split_before newline
      have one : '\n' ∉ file.takeWhile (· ≠ '\n') := by
        intro inside
        simpa using List.mem_takeWhile_imp inside
      generalize file.takeWhile (· ≠ '\n') = line at split one
      subst split
      have shorter : rest.length < n := by
        simp only [List.length_append, List.length_cons] at hn
        omega
      exact cons line rest one (ih rest.length shorter rest rfl)
    · exact last file newline

theorem physicalLines_last {line : Text} (one : '\n' ∉ line) : physicalLines line = [line] := by
  apply List.splitOnP_eq_singleton
  intro c hc
  exact decide_eq_false (fun e => one (e ▸ hc))

theorem physicalLines_cons {line : Text} (one : '\n' ∉ line) (rest : Text) :
    physicalLines (line ++ '\n' :: rest) = line :: physicalLines rest := by
  apply List.splitOnP_append_cons_of_forall_mem _ '\n' (by simp)
  intro c hc
  exact decide_eq_false (fun e => one (e ▸ hc))

theorem newline_not_mem {file line : Text} (h : line ∈ physicalLines file) : '\n' ∉ line := by
  induction file using lines_induction with
  | last l one =>
    rw [physicalLines_last one] at h
    rwa [List.mem_singleton.mp h]
  | cons l rest one ih =>
    rw [physicalLines_cons one] at h
    rcases List.mem_cons.mp h with rfl | later
    · exact one
    · exact ih later

/-- The newline at the end of a piece changes nothing. -/
theorem scriptLine_newline {line : Text} (filled : line ≠ []) :
    scriptLine (line ++ ['\n']) = scriptLine line := by
  have head : (line ++ ['\n']).head? = line.head? := by
    cases line with
    | nil => exact absurd rfl filled
    | cons c line => rfl
  unfold scriptLine
  rw [head]
  by_cases semicolon : ';' ∈ line
  · simp only [semicolon, List.mem_append, true_or, takeWhile_append_of_mem semicolon]
  · simp [semicolon]

theorem reads_line {line : Text} (one : '\n' ∉ line) (rest : Text) :
    (scriptReads (line ++ '\n' :: rest)).filterMap scriptLine =
      (pieces line).filterMap scriptLine ++ (scriptReads rest).filterMap scriptLine := by
  induction hn : line.length using Nat.strong_induction_on generalizing line with
  | _ n ih =>
    unfold scriptReads pieces
    rcases short_or_full (maxCmdLen - 1) line with short | ⟨piece, more, rfl, full⟩
    · rw [fgets_newline one short, fgets_last one short, List.filterMap_cons]
      by_cases empty : line = []
      · subst empty
        rfl
      · rw [scriptLine_newline empty]
        cases hentry : scriptLine line <;> simp [empty, hentry]
    · simp only [List.mem_append, not_or] at one
      simp only [List.length_append] at hn
      have room : 0 < maxCmdLen - 1 := by decide
      have tail := ih more.length (by omega) one.2 rfl
      unfold scriptReads pieces at tail
      rw [List.append_assoc, fgets_full one.1 full room, fgets_full one.1 full room,
        List.filterMap_cons, List.filterMap_cons, tail]
      cases scriptLine piece <;> rfl

theorem scriptContent_pieces (file : Text) : scriptContent file =
    (physicalLines file).flatMap fun line => (pieces line).filterMap scriptLine := by
  unfold scriptContent
  induction file using lines_induction with
  | last line one =>
    rw [physicalLines_last one, List.flatMap_singleton]
    rfl
  | cons line rest one ih => rw [reads_line one, physicalLines_cons one, List.flatMap_cons, ih]

/-! ## One line -/

theorem lineEntry_eq {line : Text} (one : '\n' ∉ line) : lineEntry line = scriptLine line := by
  cases line with
  | nil => simp [lineEntry, scriptLine]
  | cons c line =>
    have hc : ¬ c = '\n' := fun e => one (by simp [e])
    simp [lineEntry, scriptLine, hc]

/-- An entry leaves room for the semicolon it ended at. -/
theorem scriptLine_length {piece entry : Text} (h : scriptLine piece = some entry) :
    entry.length < piece.length := by
  unfold scriptLine at h
  split at h
  · cases h
  · split at h
    · rename_i semicolon
      obtain ⟨rest, split⟩ := split_before semicolon
      obtain rfl := Option.some.inj h
      have := congrArg List.length split
      simp only [List.length_append, List.length_cons] at this
      omega
    · cases h

theorem entry_short {line : Text} (one : '\n' ∉ line) {entry : Text}
    (h : entry ∈ (pieces line).filterMap scriptLine) : entry.length < maxCmdLen - 1 := by
  obtain ⟨piece, hpiece, hentry⟩ := List.mem_filterMap.mp h
  have fits := fgets_length one (by decide) piece hpiece
  have cut := scriptLine_length hentry
  omega

theorem pieces_cons {line : Text} (one : '\n' ∉ line) (filled : line ≠ []) :
    pieces line = line.take (maxCmdLen - 1) :: (pieces line).tail := by
  unfold pieces
  rcases short_or_full (maxCmdLen - 1) line with short | ⟨piece, more, rfl, full⟩
  · rw [fgets_last one short, if_neg filled, List.take_of_length_le (by omega)]
    rfl
  · simp only [List.mem_append, not_or] at one
    rw [fgets_full one.1 full (by decide), List.take_left' full]
    rfl

theorem comment_entries {line : Text} (comment : line.head? = some '#') : scriptLine line = none := by
  simp [scriptLine, comment]

theorem plain_entries {line : Text} (plain : ';' ∉ line) : scriptLine line = none := by
  simp [scriptLine, plain]

theorem semicolon_entries {line : Text} (one : '\n' ∉ line) (command : line.head? ≠ some '#')
    (semicolon : ';' ∈ line) : scriptLine line = some (line.takeWhile (· ≠ ';')) := by
  have start : ¬ line.head? = some '\n' := fun newline => one (List.mem_of_mem_head? newline)
  simp [scriptLine, command, start, semicolon]

/-- The entry of a line whose `;` is in its first piece. -/
theorem first_piece_entries {line : Text} (early : ';' ∈ line.take (maxCmdLen - 1)) :
    scriptLine (line.take (maxCmdLen - 1)) = scriptLine line := by
  have head : (line.take (maxCmdLen - 1)).head? = line.head? := by
    rw [List.head?_take, if_neg (by decide)]
  have semicolon : ';' ∈ line := List.mem_of_mem_take early
  have whole : line.takeWhile (· ≠ ';') = (line.take (maxCmdLen - 1)).takeWhile (· ≠ ';') := by
    have longer := takeWhile_append_of_mem early (line.drop (maxCmdLen - 1))
    rwa [List.take_append_drop] at longer
  simp only [scriptLine, head, early, semicolon, whole]

/-- Where the `;` comes after the first piece, the text before it is longer
than any entry that is read. -/
theorem late_entries {line : Text} (one : '\n' ∉ line) (command : line.head? ≠ some '#')
    (semicolon : ';' ∈ line) (late : ';' ∉ line.take (maxCmdLen - 1)) :
    (pieces line).filterMap scriptLine ≠ (scriptLine line).toList := by
  intro same
  rw [semicolon_entries one command semicolon] at same
  have short := @entry_short line one (line.takeWhile (· ≠ ';')) (by simp [same])
  obtain ⟨rest, split⟩ := split_before semicolon
  generalize line.takeWhile (· ≠ ';') = entry at short split
  apply late
  have room : maxCmdLen - 1 - entry.length = (maxCmdLen - 1 - entry.length - 1) + 1 := by omega
  rw [split, List.take_append, room, List.take_succ_cons]
  simp

/-- A line is read as it stands exactly when it is well read. -/
theorem wellRead_iff {line : Text} (one : '\n' ∉ line) :
    (pieces line).filterMap scriptLine = (lineEntry line).toList ↔ WellRead line := by
  rw [lineEntry_eq one]
  by_cases filled : line = []
  · subst filled
    exact iff_of_true rfl ⟨by simp [pieces, fgets, fgetsFrom], by simp⟩
  have cons := pieces_cons one filled
  have nothing : (pieces line).tail.filterMap scriptLine = [] ↔
      ∀ piece ∈ (pieces line).tail, scriptLine piece = none := List.filterMap_eq_nil_iff
  unfold WellRead
  by_cases command : line.head? = some '#'
  · have head : (line.take (maxCmdLen - 1)).head? = some '#' := by
      rw [List.head?_take, if_neg (by decide), command]
    rw [cons, List.filterMap_cons, comment_entries head, comment_entries command]
    simp [command]
  by_cases semicolon : ';' ∈ line
  · by_cases early : ';' ∈ line.take (maxCmdLen - 1)
    · rw [cons, List.filterMap_cons, first_piece_entries early,
        semicolon_entries one command semicolon]
      simp [early]
    · exact iff_of_false (late_entries one command semicolon early)
        (by simp [command, semicolon, early])
  · have none_left : ∀ piece ∈ pieces line, scriptLine piece = none := by
      intro piece hpiece
      apply plain_entries
      intro inside
      apply semicolon
      rw [← fgets_flatten (maxCmdLen - 1) line]
      exact List.mem_flatten.mpr ⟨piece, hpiece, inside⟩
    have empty : (pieces line).filterMap scriptLine = [] := List.filterMap_eq_nil_iff.mpr none_left
    rw [empty, plain_entries semicolon]
    simp only [Option.toList_none, semicolon, not_false_eq_true, true_or, or_true, and_true, true_iff]
    intro piece hpiece
    exact none_left piece (List.mem_of_mem_tail hpiece)

/-! ## The whole file -/

/-- Where every part of one list is the start of its counterpart, equal
lists have equal parts. -/
theorem parts_eq {α β : Type} {f g : α → List β} {as : List α} (part : ∀ a ∈ as, f a <+: g a)
    (same : as.flatMap g = as.flatMap f) : ∀ a ∈ as, g a = f a := by
  have long (bs : List α) (part : ∀ b ∈ bs, f b <+: g b) :
      (bs.flatMap f).length ≤ (bs.flatMap g).length := by
    induction bs with
    | nil => simp
    | cons b bs ih =>
      have head := (part b (by simp)).length_le
      have tail := ih fun c hc => part c (by simp [hc])
      simp only [List.flatMap_cons, List.length_append]
      omega
  induction as with
  | nil => simp
  | cons a as ih =>
    obtain ⟨more, hmore⟩ := part a (by simp)
    have rest := long as fun b hb => part b (by simp [hb])
    have sizes := congrArg List.length same
    simp only [List.flatMap_cons, ← hmore, List.length_append] at sizes
    have nothing : more = [] := List.length_eq_zero_iff.mp (by omega)
    have head : g a = f a := by simpa [nothing] using hmore.symm
    simp only [List.flatMap_cons, head, List.append_cancel_left_eq] at same
    intro b hb
    rcases List.mem_cons.mp hb with rfl | later
    · exact head
    · exact ih (fun b hb => part b (by simp [hb])) same b later

theorem expectedEntries_eq (file : Text) :
    expectedEntries file = (physicalLines file).flatMap fun line => (lineEntry line).toList :=
  List.filterMap_eq_flatMap_toList _ _

theorem prefix_of_short {line : Text} (one : '\n' ∉ line)
    (short : ∀ entry ∈ lineEntry line, entry.length < maxCmdLen - 1) :
    (lineEntry line).toList <+: (pieces line).filterMap scriptLine := by
  rw [lineEntry_eq one] at short ⊢
  cases hentry : scriptLine line with
  | none => simp
  | some entry =>
    have fits := short entry hentry
    by_cases command : line.head? = some '#'
    · simp [comment_entries command] at hentry
    by_cases semicolon : ';' ∈ line
    · have filled : line ≠ [] := List.ne_nil_of_mem semicolon
      have early : ';' ∈ line.take (maxCmdLen - 1) := by
        rw [semicolon_entries one command semicolon] at hentry
        obtain rfl := Option.some.inj hentry
        obtain ⟨rest, split⟩ := split_before semicolon
        generalize line.takeWhile (· ≠ ';') = entry at fits split
        have room : maxCmdLen - 1 - entry.length = (maxCmdLen - 1 - entry.length - 1) + 1 := by omega
        rw [split, List.take_append, room, List.take_succ_cons]
        simp
      rw [pieces_cons one filled, List.filterMap_cons, first_piece_entries early, hentry]
      exact ⟨_, rfl⟩
    · simp [plain_entries semicolon] at hentry

/-- The entries stored are those of the lines exactly when every line is well read. -/
theorem scriptContent_iff (file : Text) :
    scriptContent file = expectedEntries file ↔ ∀ line ∈ physicalLines file, WellRead line := by
  rw [scriptContent_pieces, expectedEntries_eq]
  constructor
  · intro same line hline
    have one := newline_not_mem hline
    apply (wellRead_iff one).mp
    refine parts_eq (fun l hl => ?_) same line hline
    have oneL := newline_not_mem hl
    apply prefix_of_short oneL
    intro entry hentry
    have listed : entry ∈ (physicalLines file).flatMap fun l => (pieces l).filterMap scriptLine := by
      rw [same]
      exact List.mem_flatMap.mpr ⟨l, hl, by simpa using hentry⟩
    obtain ⟨l', hl', found⟩ := List.mem_flatMap.mp listed
    exact entry_short (newline_not_mem hl') found
  · intro read
    apply List.flatMap_congr
    intro line hline
    exact (wellRead_iff (newline_not_mem hline)).mpr (read line hline)

/-! ## The array -/

section Run

variable (host : Host) (callee : Text → World → Except Fault World)

theorem reportLine_run (line : Text) (w : World) : ∃ out,
    (reportLine line).run (interp host callee) w =
      .ok ((), { w with shared := { w.shared with out := out } }) := by
  unfold reportLine
  split
  · exact ⟨w.shared.out, rfl⟩
  · split
    · exact ⟨_, rfl⟩
    · exact ⟨w.shared.out, rfl⟩

theorem reports_run (reads : List Text) (w : World) : ∃ out,
    (Cmd.each reads reportLine).run (interp host callee) w =
      .ok ((), { w with shared := { w.shared with out := out } }) := by
  induction reads generalizing w with
  | nil => exact ⟨w.shared.out, rfl⟩
  | cons line reads ih =>
    obtain ⟨out, hline⟩ := reportLine_run host callee line w
    obtain ⟨out', hrest⟩ := ih { w with shared := { w.shared with out := out } }
    exact ⟨out', by rw [Cmd.each, Prog.run_bind, hline]; exact hrest⟩

variable {host callee}

/-- Where memory is available, reading a file into a buffer depends on what the
lines read amount to. -/
theorem cpScript_run {w : World} (memory : host.malloc w.shared.calls = true)
    (slot : Slot) (file : Text) :
    ∃ s : Shared, s.scripts = w.shared.scripts ∧
      (cpScriptContentToArray slot file).run (interp host callee) w =
        match s.scripts.copyScript slot (scriptContent file) with
        | .ok scripts => .ok ((scriptContent file).length - 1,
            { w with shared := { s with scripts := scripts } })
        | .error f => .error f := by
  have asked : interp host callee .mallocTemp w =
      .ok (true, { w with shared := w.shared.asked }) := by
    simp [interp, sharedStep, memory]
  obtain ⟨out, reports⟩ :=
    reports_run host callee (scriptReads file) { w with shared := w.shared.asked }
  refine ⟨{ w.shared.asked with out := out }, rfl, ?_⟩
  unfold cpScriptContentToArray Cmd.mallocTemp
  rw [Prog.op_bind, Prog.run_op_ok asked]
  simp only [Prog.pure_bind', ↓reduceIte]
  rw [Prog.run_bind, reports]
  simp only [Cmd.copyScript, Prog.op_bind, Prog.run, interp, sharedStep]
  cases Scripts.copyScript slot (scriptContent file) w.shared.asked.scripts with
  | error f => rfl
  | ok scripts => rfl

end Run

/-- Where memory is available, the file is read back as `entries`, and the
result is one less than their number. -/
def ReadBack (file : Text) (entries : List Text) : Prop :=
  ∀ (host : Host) (callee : Text → World → Except Fault World) (w : World) (slot : Slot),
    host.malloc w.shared.calls = true → w.shared.scripts.gScriptParam slot ≠ none →
      ∃ w', (cpScriptContentToArray slot file).run (interp host callee) w =
          .ok ((entries.length : Int) - 1, w') ∧
        w'.shared.scripts.gScriptParam slot = some entries

/-- A world with a buffer in every slot. -/
def buffered : World := ⟨.initial, { Shared.initial (fun _ => none) with
  scripts := { Scripts.empty with gScriptParam := fun _ => some [] } }⟩

theorem readBack_iff {file : Text} {entries : List Text} (few : entries.length ≤ maxScLine) :
    ReadBack file entries ↔ scriptContent file = entries := by
  constructor
  · intro h
    obtain ⟨slot⟩ : Nonempty Slot := ⟨0⟩
    have buffer : buffered.shared.scripts.gScriptParam slot ≠ none := by simp [buffered]
    have memory : (Host.willing (fun _ => 5) (fun _ => none) fun _ => none).malloc
        buffered.shared.calls = true := rfl
    obtain ⟨w, hrun, stored⟩ := h _ (fun _ => .ok) buffered slot memory buffer
    obtain ⟨s, same, hcopy⟩ := @cpScript_run _ (fun _ => .ok) _ memory slot file
    rw [hcopy] at hrun
    by_cases fits : (scriptContent file).length ≤ maxScLine
    · rw [Scripts.copyScript_slot (same ▸ buffer) fits] at hrun
      simp only [Except.ok.injEq, Prod.mk.injEq] at hrun
      obtain ⟨-, rfl⟩ := hrun
      simpa using stored
    · rw [Scripts.copyScript_many (same ▸ buffer) (by omega)] at hrun
      cases hrun
  · rintro rfl
    intro host callee w slot memory buffer
    obtain ⟨s, same, hcopy⟩ := @cpScript_run _ callee _ memory slot file
    rw [Scripts.copyScript_slot (same ▸ buffer) few] at hcopy
    exact ⟨_, hcopy, by simp⟩


/-- A file with at most 500 command lines is read back as its lines stand
exactly when every line is well read. -/
theorem readsScript_iff (file : Text) (few : (expectedEntries file).length ≤ maxScLine) :
    ReadBack file (expectedEntries file) ↔ ∀ line ∈ physicalLines file, WellRead line :=
  (readBack_iff few).trans (scriptContent_iff file)

/-- Comments, an empty line, a line without `;` and a last line without newline. -/
def mixedFile : Text := "# a\nadd 1 10.0.0.1; first;\n\nnothing\nlook;".toList

theorem readsScript_mixedFile : (expectedEntries mixedFile).length ≤ maxScLine ∧
    (ReadBack mixedFile (expectedEntries mixedFile) ↔
      ∀ line ∈ physicalLines mixedFile, WellRead line) :=
  have few : (expectedEntries mixedFile).length ≤ maxScLine := by decide +kernel
  ⟨few, readsScript_iff mixedFile few⟩

/-- A comment whose 256th character begins a piece with a semicolon. -/
def longComment : Text := '#' :: List.replicate 254 '-' ++ "quit;\n".toList

/-- The comment is stored as the command `quit`. -/
theorem readsScript_longComment : ¬ ∀ file : Text, (expectedEntries file).length ≤ maxScLine →
    ReadBack file (expectedEntries file) := by
  intro all
  have few : (expectedEntries longComment).length ≤ maxScLine := by decide +kernel
  have stored := (readBack_iff few).mp (all longComment few)
  have read : scriptContent longComment = ["quit".toList] := by decide +kernel
  have wanted : expectedEntries longComment = [] := by decide +kernel
  rw [read, wanted] at stored
  cases stored

end AutoTest
