import AutoTest.LogScan
import AutoTest.Registry
import AutoTest.ScriptFile

/-!
# Record and replay

`ret_receive` appends what the phones send to files, and what follows the
first `record` of a datagram to a file of its own, to be run as a script. Each
text is then given to `syslogProcess`, records too.

* `Reception.round`: one round of the loop that received a datagram.
* `receiveAll`: the rounds up to the one that a fault ends, if any does.
* `record_replayed_iff`: a recorded file is read back as the commands recorded
  exactly when no scan for a client number leaves a text but the last.
-/

namespace AutoTest

open CString Program

def cmdRecord : Text := "record".toList
def logDir : Text := "./log".toList
def maxLogSize : Nat := 150
def maxBuffSize : Nat := 300

/-- A datagram, and what the host does about it. -/
structure Reception where
  /-- the sender, as `inet_ntoa` writes it -/
  ip : Text
  bytes : Text
  /-- what `getSysTime` writes -/
  sysTime : Text
  /-- whether the file could be opened for appending -/
  opened : Bool
  /-- how many characters `fwrite` can write -/
  room : Nat

namespace Reception

variable (r : Reception)

/-- The last byte of the buffer is cleared. -/
def buf : Text := r.bytes.take (maxLogSize - 1)

def logPath : Text :=
  match strstr cmdRecord r.buf with
  | some _ => logDir ++ "/".toList ++ r.ip ++ "_".toList ++ cmdRecord
  | none => logDir ++ "/".toList ++ r.ip

/-- The newline replaces the terminator; the byte after the array that the code
clears as well is not modelled. -/
def log : Text :=
  match strstr cmdRecord r.buf with
  | some p => (p.drop cmdRecord.length).take (maxBuffSize - 1) ++ "\n".toList
  | none => r.sysTime.dropLast ++ ": ".toList ++ r.buf ++ "\n".toList

/-- The text that is written, and then given to `syslogProcess`. -/
def logged : Option Text := if r.buf ≠ [] ∧ r.opened then some r.log else none

/-- The files after `fclose`. -/
def append (files : Text → Text) : Text → Text :=
  match r.logged with
  | none => files
  | some log => Function.update files r.logPath (files r.logPath ++ log.take r.room)

end Reception

/-- The process, and the files that `ret_receive` appends to. -/
structure RetReceive where
  world : World
  files : Text → Text

/-- The text reports nothing, or its scan for a client number is safe. -/
def Scanned (log : Text) : Prop := getLogMsgIssueId log = none ∨ Scan.Closed log

instance (log : Text) : Decidable (Scanned log) := inferInstanceAs (Decidable (_ ∨ _))

section Rounds

variable (host : Host) (callee : Text → World → Except Fault World)

/-- One round, and the fault that ends the receiver in it. The file has been
closed by then. -/
def Reception.round (r : Reception) (s : RetReceive) : RetReceive × Option Fault :=
  match r.logged with
  | none => (s, none)
  | some log =>
    match perform host callee (syslogProcess log) s.world with
    | .ok world => (⟨world, r.append s.files⟩, none)
    | .error f => ({ s with files := r.append s.files }, some f)

def receiveAll : List Reception → RetReceive → RetReceive
  | [], s => s
  | r :: rs, s =>
    match r.round host callee s with
    | (s, none) => receiveAll rs s
    | (s, some _) => s

theorem syslogProcess_passes {log : Text} (w : World) :
    Scanned log ↔ ∃ w', perform host callee (syslogProcess log) w = .ok w' := by
  rw [perform_syslogProcess, logEffect, Scanned, Scan.closed_iff_number]
  cases getLogMsgIssueId log with
  | none => simp
  | some issueId =>
    cases names : getLogClientNum log with
    | error f => simp [loggedClient, names]
    | ok clientNum =>
      simp only [loggedClient, names]
      cases (clientIndex clientNum).filter (0 < ·.val) <;> simp

namespace Reception

variable (r : Reception)

def Passes : Prop := ∀ log, r.logged = some log → Scanned log

instance : Decidable r.Passes := inferInstanceAs (Decidable (∀ log ∈ r.logged, Scanned log))

theorem round_files (s : RetReceive) : (r.round host callee s).1.files = r.append s.files := by
  unfold round
  cases logged : r.logged with
  | none => simp [append, logged]
  | some log =>
    cases performed : perform host callee (syslogProcess log) s.world <;> simp only [performed]

theorem round_passes (s : RetReceive) : (r.round host callee s).2 = none ↔ r.Passes := by
  unfold round Passes
  cases logged : r.logged with
  | none => simp
  | some log =>
    simp only [Option.some.injEq, forall_eq', syslogProcess_passes host callee s.world]
    cases perform host callee (syslogProcess log) s.world <;> simp

end Reception

variable {host callee}

theorem receiveAll_passes {r : Reception} {rs : List Reception} {s : RetReceive} (passes : r.Passes) :
    receiveAll host callee (r :: rs) s = receiveAll host callee rs (r.round host callee s).1 := by
  have whole := (r.round_passes host callee s).mpr passes
  generalize hround : r.round host callee s = round at whole
  obtain ⟨t, fault⟩ := round
  obtain rfl : fault = none := whole
  simp only [receiveAll, hround]

theorem receiveAll_ends {r : Reception} {rs : List Reception} {s : RetReceive} (ends : ¬ r.Passes) :
    receiveAll host callee (r :: rs) s = (r.round host callee s).1 := by
  have cut := mt (r.round_passes host callee s).mp ends
  generalize hround : r.round host callee s = round at cut
  obtain ⟨t, fault⟩ := round
  cases fault with
  | none => exact absurd rfl cut
  | some f => simp only [receiveAll, hround]

/-- Every datagram is appended if the receiver gets to the last. -/
theorem receiveAll_files {rs : List Reception} (passes : ∀ r ∈ rs.dropLast, r.Passes)
    (s : RetReceive) :
    (receiveAll host callee rs s).files = rs.foldl (fun files r => r.append files) s.files := by
  induction rs generalizing s with
  | nil => rfl
  | cons r rs ih =>
    cases rs with
    | nil =>
      by_cases last : r.Passes
      · rw [receiveAll_passes last, List.foldl_cons, ← r.round_files host callee s]
        rfl
      · rw [receiveAll_ends last, List.foldl_cons, r.round_files host callee s]
        rfl
    | cons r' rs =>
      rw [List.dropLast_cons_cons] at passes
      rw [receiveAll_passes (passes r (by simp)), ih fun other inside =>
        passes other (by simp [inside]), r.round_files host callee s]
      rfl

end Rounds

def recordPath (ip : Text) : Text := logDir ++ "/".toList ++ ip ++ "_".toList ++ cmdRecord

/-- A short datagram with a command after its first `record`, written in full. -/
structure Recorded (ip : Text) where
  reception : Reception
  before : Text
  text : Text
  sender : reception.ip = ip
  bytes : reception.bytes = before ++ (cmdRecord ++ text)
  short : reception.bytes.length < maxLogSize
  first : ∀ a b, reception.bytes = a ++ (cmdRecord ++ b) → before.length ≤ a.length
  semicolon : ';' ∈ text
  newline : '\n' ∉ text.dropLast
  command : text.head? ≠ some '#'
  opened : reception.opened = true
  written : text.length < reception.room

namespace Recorded

variable {ip : Text} (r : Recorded ip)

/-- The command recorded. -/
def entry : Text := r.text.takeWhile (· ≠ ';')

/-- The first occurrence is the one found. -/
theorem strstr_first {needle before : Text} (text : Text) (filled : needle ≠ [])
    (first : ∀ a b, before ++ (needle ++ text) = a ++ (needle ++ b) → before.length ≤ a.length) :
    strstr needle (before ++ (needle ++ text)) = some (needle ++ text) := by
  induction before with
  | nil =>
    cases needle with
    | nil => exact absurd rfl filled
    | cons c needle =>
      have here : (c :: needle).isPrefixOf (c :: (needle ++ text)) = true :=
        List.isPrefixOf_iff_prefix.mpr ⟨text, rfl⟩
      rw [List.nil_append, List.cons_append, strstr, if_pos here]
  | cons c before ih =>
    have elsewhere : ¬ needle.isPrefixOf (c :: (before ++ (needle ++ text))) = true := by
      intro here
      obtain ⟨b, hb⟩ := List.isPrefixOf_iff_prefix.mp here
      have := first [] b (by simpa using hb.symm)
      simp at this
    rw [List.cons_append, strstr, if_neg elsewhere]
    apply ih
    intro a b same
    have := first (c :: a) b (by rw [List.cons_append, same, List.cons_append])
    simpa using this

theorem buf_eq : r.reception.buf = r.before ++ (cmdRecord ++ r.text) := by
  have short := r.short
  rw [Reception.buf, List.take_of_length_le (by omega), r.bytes]

theorem strstr_buf : strstr cmdRecord r.reception.buf = some (cmdRecord ++ r.text) := by
  rw [r.buf_eq]
  exact strstr_first r.text (by decide) (r.bytes ▸ r.first)

theorem text_short : r.text.length < maxLogSize := by
  have short := r.short
  rw [r.bytes] at short
  simp only [List.length_append] at short
  omega

theorem log_eq : r.reception.log = r.text ++ ['\n'] := by
  have fits : r.text.length ≤ maxBuffSize - 1 := by
    have := r.text_short
    simp only [maxLogSize, maxBuffSize] at this ⊢
    omega
  simp only [Reception.log, r.strstr_buf, List.drop_left, List.take_of_length_le fits]
  rfl

theorem logged_eq : r.reception.logged = some (r.text ++ ['\n']) := by
  have filled : r.reception.buf ≠ [] := by
    rw [r.buf_eq]
    simp [cmdRecord]
  rw [Reception.logged, if_pos ⟨filled, r.opened⟩, r.log_eq]

/-- Its round appends the text and a newline to the file of its sender. -/
theorem append_file (files : Text → Text) : r.reception.append files (recordPath ip) =
    files (recordPath ip) ++ (r.text ++ ['\n']) := by
  have path : r.reception.logPath = recordPath ip := by
    simp only [Reception.logPath, r.strstr_buf, r.sender]
    rfl
  have whole : (r.text ++ ['\n']).take r.reception.room = r.text ++ ['\n'] := by
    have written := r.written
    exact List.take_of_length_le (by simp only [List.length_append, List.length_singleton]; omega)
  simp only [Reception.append, r.logged_eq, path, whole, Function.update_self]

/-- The scan of the text that is appended is safe, if one is made. -/
def Scanned : Prop := AutoTest.Scanned (r.text ++ ['\n'])

instance : Decidable r.Scanned := inferInstanceAs (Decidable (AutoTest.Scanned _))

theorem passes_iff : r.reception.Passes ↔ r.Scanned := by
  simp [Reception.Passes, r.logged_eq, Scanned]

/-- A short line with a command is read as that command. -/
theorem read_line {line : Text} (one : '\n' ∉ line) (short : line.length < maxCmdLen - 1)
    (command : line.head? ≠ some '#') (semicolon : ';' ∈ line) (rest : Text) :
    scriptContent (line ++ '\n' :: rest) = line.takeWhile (· ≠ ';') :: scriptContent rest := by
  have filled : line ≠ [] := List.ne_nil_of_mem semicolon
  unfold scriptContent
  rw [reads_line one, pieces, fgets_last one short, if_neg filled, List.filterMap_cons,
    semicolon_entries one command semicolon]
  rfl

theorem read_empty (rest : Text) : scriptContent ('\n' :: rest) = scriptContent rest := by
  have skip := @reads_line [] (by simp) rest
  simpa [scriptContent, pieces, fgets, fgetsFrom] using skip

/-- What a round appends is read back as its command, also where the text
brings a newline of its own. -/
theorem read_text (rest : Text) :
    scriptContent (r.text ++ '\n' :: rest) = r.entry :: scriptContent rest := by
  have short : r.text.length < maxCmdLen - 1 := by
    have := r.text_short
    simp only [maxLogSize, maxCmdLen] at this ⊢
    omega
  have semicolon := r.semicolon
  have command := r.command
  have newline := r.newline
  unfold entry
  generalize r.text = text at short semicolon command newline ⊢
  by_cases ended : '\n' ∈ text
  · obtain ⟨line, c, rfl⟩ := (List.eq_nil_or_concat' text).resolve_left (List.ne_nil_of_mem ended)
    rw [List.dropLast_concat] at newline
    simp only [List.mem_append, newline, List.mem_singleton, false_or] at ended
    subst ended
    have inside : ';' ∈ line := by simpa using semicolon
    have head : (line ++ ['\n']).head? = line.head? := by
      rw [List.head?_append_of_ne_nil line (List.ne_nil_of_mem inside)]
    simp only [List.length_append, List.length_singleton] at short
    rw [List.append_assoc, List.singleton_append,
      read_line newline (by omega) (head ▸ command) inside,
      read_empty, takeWhile_append_of_mem inside]
  · exact read_line ended short command semicolon rest

end Recorded

section Replay

variable {host : Host} {callee : Text → World → Except Fault World}

/-- The file of a sender grows by the texts of the first records, which are all
of them exactly when the receiver gets to the last. -/
theorem receiveAll_file {ip : Text} (rs : List (Recorded ip)) (s : RetReceive) :
    ∃ done left, rs = done ++ left ∧
    (receiveAll host callee (rs.map Recorded.reception) s).files (recordPath ip) =
      s.files (recordPath ip) ++ (done.flatMap fun r => r.text ++ ['\n']) ∧
    (left = [] ↔ ∀ r ∈ rs.dropLast, r.Scanned) := by
  induction rs generalizing s with
  | nil => exact ⟨[], [], rfl, by simp [receiveAll], by simp⟩
  | cons r rs ih =>
    rw [List.map_cons]
    have appended := r.reception.round_files host callee s
    by_cases scanned : r.Scanned
    · obtain ⟨done, left, rfl, file, whole⟩ := ih (r.reception.round host callee s).1
      refine ⟨r :: done, left, rfl, ?_, ?_⟩
      · rw [receiveAll_passes (r.passes_iff.mpr scanned), file, appended, r.append_file,
          List.flatMap_cons, List.append_assoc]
      · rw [whole]
        cases done ++ left with
        | nil => simp
        | cons r' rs => simp [scanned]
    · refine ⟨[r], rs, rfl, ?_, ?_⟩
      · rw [receiveAll_ends (mt r.passes_iff.mp scanned), appended, r.append_file,
          List.flatMap_singleton]
      · cases rs with
        | nil => simp
        | cons r' rs => simp [scanned]

theorem scriptContent_records {ip : Text} (rs : List (Recorded ip)) :
    scriptContent (rs.flatMap fun r => r.text ++ ['\n']) = rs.map Recorded.entry := by
  induction rs with
  | nil => rfl
  | cons r rs ih =>
    rw [List.flatMap_cons, List.append_assoc, List.singleton_append, r.read_text, ih, List.map_cons]

/-- The record of at most 500 datagrams from one sender, begun in an empty
file, is read back as the commands recorded, in the order of arrival, exactly
when the text of each but the last is scanned safely. -/
theorem record_replayed_iff (ip : Text) (rs : List (Recorded ip)) (few : rs.length ≤ maxScLine)
    (s : RetReceive) (empty : s.files (recordPath ip) = []) :
    ReadBack ((receiveAll host callee (rs.map Recorded.reception) s).files (recordPath ip))
        (rs.map Recorded.entry) ↔ ∀ r ∈ rs.dropLast, r.Scanned := by
  obtain ⟨done, left, parts, file, whole⟩ := @receiveAll_file host callee ip rs s
  rw [readBack_iff (by simpa using few), file, empty, List.nil_append, scriptContent_records, ← whole]
  constructor
  · intro same
    have lengths := congrArg List.length same
    rw [parts] at lengths
    simpa using lengths
  · rintro rfl
    rw [parts, List.append_nil]

end Replay

theorem first_of_drop {needle t : Text} {n : Nat}
    (absent : ∀ i < n, needle.isPrefixOf (t.drop i) = false)
    (a b : Text) (h : t = a ++ (needle ++ b)) : n ≤ a.length := by
  apply Classical.by_contradiction
  intro early
  have found := absent a.length (by omega)
  rw [h, List.drop_left] at found
  have here : needle.isPrefixOf (needle ++ b) = true := List.isPrefixOf_iff_prefix.mpr ⟨b, rfl⟩
  rw [here] at found
  cases found

def nothingReceived : RetReceive := ⟨⟨.initial, .initial fun _ => none⟩, fun _ => []⟩

/-- A press of key 1 that is also a report, with or without a newline at its end. -/
def recordedKey (ended : Bool) : Recorded "10.0.0.1".toList where
  reception :=
    { ip := "10.0.0.1".toList
      bytes := "phone record".toList ++
        ("ioevt 1 1 p; client 3 doubleTalk".toList ++ if ended then ['\n'] else [])
      sysTime := []
      opened := true
      room := 40 }
  before := "phone ".toList
  text := "ioevt 1 1 p; client 3 doubleTalk".toList ++ if ended then ['\n'] else []
  sender := rfl
  bytes := rfl
  short := by cases ended <;> decide
  first := first_of_drop (by cases ended <;> decide)
  semicolon := by cases ended <;> decide
  newline := by cases ended <;> decide
  command := by cases ended <;> decide
  opened := rfl
  written := by cases ended <;> decide

/-- Records of reports that are well formed do no harm. -/
theorem record_replayed_keys : ReadBack
    ((receiveAll (.willing (fun _ => 5) (fun _ => none) fun _ => none) (fun _ => .ok)
      ([recordedKey true, recordedKey false].map Recorded.reception) nothingReceived).files
      (recordPath "10.0.0.1".toList))
    ["ioevt 1 1 p".toList, "ioevt 1 1 p".toList] := by
  have scanned (r : Recorded "10.0.0.1".toList) (early : r ∈ [recordedKey true]) : r.Scanned := by
    obtain rfl := List.mem_singleton.mp early
    decide +kernel
  have entries : [recordedKey true, recordedKey false].map Recorded.entry =
      ["ioevt 1 1 p".toList, "ioevt 1 1 p".toList] := by decide +kernel
  rw [← entries]
  exact (record_replayed_iff _ _ (by decide) nothingReceived rfl).mpr scanned

/-- A command with a remark that reads like a report. -/
def strayClient : Recorded "10.0.0.1".toList where
  reception :=
    { ip := "10.0.0.1".toList
      bytes := "record".toList ++ "look; doubleTalk client".toList
      sysTime := []
      opened := true
      room := 40 }
  before := []
  text := "look; doubleTalk client".toList
  sender := rfl
  bytes := rfl
  short := by decide
  first := first_of_drop (by decide)
  semicolon := by decide
  newline := by decide
  command := by decide
  opened := rfl
  written := by decide

/-- The record after it is lost. -/
theorem strayClient_unrecorded :
    ¬ ∀ (host : Host) (callee : Text → World → Except Fault World) (ip : Text)
    (rs : List (Recorded ip)), rs.length ≤ maxScLine →
      ∀ s : RetReceive, s.files (recordPath ip) = [] →
      ReadBack ((receiveAll host callee (rs.map Recorded.reception) s).files (recordPath ip))
        (rs.map Recorded.entry) := by
  intro replayed
  have both := replayed (.willing (fun _ => 5) (fun _ => none) fun _ => none) (fun _ => .ok)
    "10.0.0.1".toList [strayClient, strayClient] (by decide) nothingReceived rfl
  have content := (readBack_iff (by decide)).mp both
  exact absurd content (by decide +kernel)

end AutoTest
