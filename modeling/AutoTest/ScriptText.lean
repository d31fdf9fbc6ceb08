import AutoTest.Record

/-!
# Script files as text

A stored command ends before the `;` of its line, and a line is read in pieces.
So not every list of commands comes out of a file, and for those that do there
is one way to write them.

* `stored_storable`: what is stored can be written to a file again.
* `script_saved`: a list of commands is read back from its own file exactly
  when each of them can be stored.
* `scriptContent_append`: files that are joined at a newline are read one after
  the other.
-/

namespace AutoTest

open CString Program

/-! ## Joined files -/

theorem physicalLines_append (front rest : Text) :
    physicalLines (front ++ '\n' :: rest) = physicalLines front ++ physicalLines rest := by
  induction front using lines_induction with
  | last line one => rw [physicalLines_cons one, physicalLines_last one, List.singleton_append]
  | cons line more one ih =>
    rw [List.append_assoc, List.cons_append, physicalLines_cons one, physicalLines_cons one, ih,
      List.cons_append]

theorem scriptContent_append (front rest : Text) :
    scriptContent (front ++ '\n' :: rest) = scriptContent front ++ scriptContent rest := by
  rw [scriptContent_pieces, scriptContent_pieces, scriptContent_pieces, physicalLines_append,
    List.flatMap_append]

theorem scriptContent_nil : scriptContent [] = [] := rfl

/-! ## Short lines -/

/-- A line that fits the buffer is read at once. -/
theorem wellRead_short {line : Text} (one : '\n' ∉ line) (short : line.length ≤ maxCmdLen - 1) :
    WellRead line := by
  have whole : pieces line = [] ∨ pieces line = [line] := by
    unfold pieces
    rcases short_or_full (maxCmdLen - 1) line with less | ⟨piece, rest, rfl, full⟩
    · rw [fgets_last one less]
      by_cases empty : line = [] <;> simp [empty]
    · simp only [List.mem_append, not_or] at one
      simp only [List.length_append] at short
      obtain rfl : rest = [] := List.eq_nil_of_length_eq_zero (by omega)
      rw [fgets_full one.1 full (by decide), List.append_nil]
      exact .inr rfl
  constructor
  · rcases whole with nothing | whole
    · simp [nothing]
    · simp [whole]
  · rw [List.take_of_length_le short]
    by_cases semicolon : ';' ∈ line
    · exact .inr (.inr semicolon)
    · exact .inr (.inl semicolon)

theorem length_physicalLines {file line : Text} (h : line ∈ physicalLines file) :
    line.length ≤ file.length := by
  induction file using lines_induction with
  | last l one =>
    rw [physicalLines_last one] at h
    rw [List.mem_singleton.mp h]
  | cons l rest one ih =>
    rw [physicalLines_cons one] at h
    rw [List.length_append, List.length_cons]
    rcases List.mem_cons.mp h with rfl | later
    · omega
    · have := ih later
      omega

/-- A short file has short lines. -/
theorem scriptContent_short {file : Text} (short : file.length ≤ maxCmdLen - 1) :
    scriptContent file = expectedEntries file := by
  apply (scriptContent_iff file).mpr
  intro line listed
  exact wellRead_short (newline_not_mem listed) ((length_physicalLines listed).trans short)

/-! ## Commands that can be stored -/

/-- The command leaves room for the `;` that ends it. -/
structure Storable (command : Text) : Prop where
  one : '\n' ∉ command
  unended : ';' ∉ command
  plain : command.head? ≠ some '#'
  short : command.length < maxCmdLen - 1

instance (command : Text) : Decidable (Storable command) :=
  decidable_of_iff ('\n' ∉ command ∧ ';' ∉ command ∧ command.head? ≠ some '#' ∧
    command.length < maxCmdLen - 1)
    ⟨fun ⟨one, unended, plain, short⟩ => ⟨one, unended, plain, short⟩,
      fun ⟨one, unended, plain, short⟩ => ⟨one, unended, plain, short⟩⟩

theorem takeWhile_head {p : Char → Bool} {t : Text} {c : Char} (h : (t.takeWhile p).head? = some c) :
    t.head? = some c := by
  cases t with
  | nil => cases h
  | cons d t =>
    rw [List.takeWhile_cons] at h
    split at h
    · exact h
    · cases h

/-- What a file stores, whatever is in it. -/
theorem stored_storable {file command : Text} (stored : command ∈ scriptContent file) :
    Storable command := by
  rw [scriptContent_pieces] at stored
  obtain ⟨line, listed, inside⟩ := List.mem_flatMap.mp stored
  have one := newline_not_mem listed
  have short := entry_short one inside
  obtain ⟨piece, hpiece, hentry⟩ := List.mem_filterMap.mp inside
  have part : ∀ c ∈ piece, c ∈ line := by
    intro c hc
    rw [← fgets_flatten (maxCmdLen - 1) line]
    exact List.mem_flatten.mpr ⟨piece, hpiece, hc⟩
  unfold scriptLine at hentry
  split at hentry
  · cases hentry
  · rename_i command'
    split at hentry
    · obtain rfl := Option.some.inj hentry
      constructor
      · exact fun newline => one (part _ ((List.takeWhile_prefix _).subset newline))
      · exact fun semicolon => absurd (List.mem_takeWhile_imp semicolon) (by simp)
      · exact fun comment => command' (.inl (takeWhile_head comment))
      · exact short
    · cases hentry

/-- Each command on a line of its own. -/
def renderScript (commands : List Text) : Text :=
  commands.flatMap fun command => command ++ ";\n".toList

theorem lineEntry_command {command : Text} (unended : ';' ∉ command)
    (plain : command.head? ≠ some '#') : lineEntry (command ++ [';']) = some command := by
  have head : (command ++ [';']).head? ≠ some '#' := by
    cases command with
    | nil => simp
    | cons c command => exact plain
  have cut : (command ++ [';']).takeWhile (· ≠ ';') = command := by
    rw [List.takeWhile_append_of_pos]
    · simp
    · intro c hc
      exact decide_eq_true fun same => unended (same ▸ hc)
  simp only [lineEntry, head, cut]
  simp

theorem rendered_read {commands : List Text} (storable : ∀ command ∈ commands, Storable command) :
    scriptContent (renderScript commands) = commands := by
  induction commands with
  | nil => rfl
  | cons command commands ih =>
    obtain ⟨one, unended, plain, short⟩ := storable command (by simp)
    have rest := ih fun other hother => storable other (by simp [hother])
    have line : renderScript (command :: commands) = (command ++ [';']) ++ '\n' ::
        renderScript commands := by
      simp [renderScript]
    have one' : '\n' ∉ command ++ [';'] := by simp [one]
    rw [line, scriptContent_append, rest, scriptContent_short (by simp; omega), expectedEntries,
      physicalLines_last one', List.filterMap_cons, lineEntry_command unended plain]
    rfl

/-- Some file is read as the commands exactly when each of them can be stored,
and then the file they are written to is. -/
theorem script_saved (commands : List Text) (few : commands.length ≤ maxScLine) :
    ((∃ file, ReadBack file commands) ↔ ∀ command ∈ commands, Storable command) ∧
      (ReadBack (renderScript commands) commands ↔ ∀ command ∈ commands, Storable command) := by
  have stored {file : Text} (h : ReadBack file commands) : ∀ command ∈ commands,
      Storable command := by
    obtain rfl := (readBack_iff few).mp h
    exact fun command => stored_storable
  have saved (storable : ∀ command ∈ commands, Storable command) :
      ReadBack (renderScript commands) commands :=
    (readBack_iff few).mpr (rendered_read storable)
  exact ⟨⟨fun ⟨file, h⟩ => stored h, fun storable => ⟨_, saved storable⟩⟩, stored, saved⟩

/-- A key, the longest command there can be, and one that is longer. -/
theorem script_saved_length : ReadBack (renderScript ["ioevt 1 1 p".toList, List.replicate 254 'a'])
      ["ioevt 1 1 p".toList, List.replicate 254 'a'] ∧
    ¬ ReadBack (renderScript [List.replicate 255 'a']) [List.replicate 255 'a'] :=
  ⟨(script_saved ["ioevt 1 1 p".toList, List.replicate 254 'a'] (by decide)).2.mpr
    (by decide +kernel),
    fun read => absurd ((script_saved [List.replicate 255 'a'] (by decide)).2.mp read)
      (by decide +kernel)⟩

end AutoTest
