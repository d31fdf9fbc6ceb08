import AutoTest.Appends
import AutoTest.ScriptText

/-!
# The files of many phones

All phones send to one port, and each datagram is appended to a file that is
named after its sender. The datagrams of the phones come in any order among
each other, logs and records alike, and one that `syslogProcess` does not get
through ends the receiver for all of them.

* `filePath_inj`: no two senders share a file.
* `senders_apart`: the files do not depend on how the senders interleave.
* `record_amid`: a record file holds the commands of its phone, whatever else
  arrives.
-/

namespace AutoTest

open CString Appends

/-! ## Files -/

/-- An address as `inet_ntoa` writes it. -/
def Dotted (ip : Text) : Prop := ∀ c ∈ ip, c.isDigit ∨ c = '.'

instance (ip : Text) : Decidable (Dotted ip) := List.decidableBAll _ ip

theorem Dotted.plain {ip : Text} (dotted : Dotted ip) : '_' ∉ ip :=
  fun inside => absurd (dotted '_' inside) (by decide)

/-- The file of a sender, for its records or for its logs. -/
def filePath (ip : Text) (record : Bool) : Text :=
  logDir ++ "/".toList ++ (ip ++ if record then "_".toList ++ cmdRecord else [])

theorem recordPath_eq (ip : Text) : recordPath ip = filePath ip true := by
  simp [recordPath, filePath, List.append_assoc]

/-- No two senders share a file, and no file has both logs and records. -/
theorem filePath_inj {ip ip' : Text} {record record' : Bool} (dotted : Dotted ip)
    (dotted' : Dotted ip')
    (same : filePath ip record = filePath ip' record') : ip = ip' ∧ record = record' := by
  unfold filePath at same
  rw [List.append_cancel_left_eq] at same
  have cut {ip : Text} (plain : '_' ∉ ip) (record : Bool) :
      (ip ++ if record then "_".toList ++ cmdRecord else []).takeWhile (· ≠ '_') = ip := by
    rw [List.takeWhile_append_of_pos]
    · cases record <;> simp
    · intro c hc
      exact decide_eq_true fun same => plain (same ▸ hc)
  obtain rfl : ip = ip' := by rw [← cut dotted.plain record, same, cut dotted'.plain]
  rw [List.append_cancel_left_eq] at same
  refine ⟨rfl, ?_⟩
  cases record <;> cases record' <;> simp [cmdRecord] at same ⊢

namespace Reception

variable (r : Reception)

def records : Bool := (strstr cmdRecord r.buf).isSome

/-- What follows the first `record`. -/
def recorded : Text := ((strstr cmdRecord r.buf).map (·.drop cmdRecord.length)).getD []

/-- What a round appends, and to which file. -/
def entry : Option (Text × Text) := r.logged.map fun log => (r.logPath, log.take r.room)

/-- The line of a record is written in full. -/
def Written : Prop := r.opened = true ∧ r.log.length ≤ r.room

instance : Decidable r.Written := inferInstanceAs (Decidable (_ ∧ _))

theorem append_entry (files : Text → Text) : r.append files = add entry files r := by
  unfold append add entry
  cases r.logged <;> rfl

variable {r}

theorem logPath_eq : r.logPath = filePath r.ip r.records := by
  unfold logPath filePath records
  cases strstr cmdRecord r.buf with
  | none => simp
  | some p => simp [List.append_assoc]

theorem entry_path {path text : Text} (writes : r.entry = some (path, text)) :
    path = filePath r.ip r.records := by
  obtain ⟨log, -, written⟩ := Option.map_eq_some_iff.mp writes
  rw [← logPath_eq]
  exact congrArg Prod.fst written.symm

theorem recorded_short : r.recorded.length < maxLogSize := by
  unfold recorded
  cases found : strstr cmdRecord r.buf with
  | none => simp [maxLogSize]
  | some p =>
    have inside := (strstr_suffix found).length_le
    have short : r.buf.length ≤ maxLogSize - 1 := List.length_take_le _ _
    simp only [Option.map_some, Option.getD_some, List.length_drop, maxLogSize] at short ⊢
    omega

theorem record_log (records : r.records = true) : r.log = r.recorded ++ ['\n'] := by
  have short := r.recorded_short
  unfold Reception.records at records
  unfold recorded at short
  unfold log recorded
  cases found : strstr cmdRecord r.buf with
  | none => simp [found] at records
  | some p =>
    simp only [found, Option.map_some, Option.getD_some] at short ⊢
    rw [List.take_of_length_le (by simp only [maxLogSize, maxBuffSize] at short ⊢; omega)]
    rfl

/-- What a datagram adds to the record file of an address. -/
theorem added_record {ip : Text} (dotted : Dotted ip) (dotted' : Dotted r.ip)
    (written : r.ip = ip → r.records = true → r.Written) : added entry (recordPath ip) r =
      if r.ip = ip ∧ r.records = true then r.recorded ++ ['\n'] else [] := by
  by_cases own : r.ip = ip ∧ r.records = true
  · obtain ⟨rfl, records⟩ := own
    obtain ⟨opened, room⟩ := written rfl records
    have filled : r.buf ≠ [] := by
      intro empty
      simp [Reception.records, empty, strstr, cmdRecord] at records
    have path : r.logPath = recordPath r.ip := by rw [logPath_eq, recordPath_eq, records]
    have whole : r.log.take r.room = r.recorded ++ ['\n'] := by
      rw [List.take_of_length_le room, record_log records]
    have logged : r.logged = some r.log := if_pos ⟨filled, opened⟩
    simp only [added, entry, logged, Option.map_some, path, whole, records, and_self, ↓reduceIte]
  · rw [if_neg own]
    apply added_nil
    intro text writes
    have path := entry_path writes
    rw [recordPath_eq] at path
    obtain ⟨ip, records⟩ := filePath_inj dotted dotted' path
    exact own ⟨ip.symm, records.symm⟩

end Reception

section Arrivals

variable {host : Host} {callee : Text → World → Except Fault World}

theorem receiveAll_eq {rs : List Reception} (passes : ∀ r ∈ rs.dropLast, r.Passes) (s : RetReceive) :
    (receiveAll host callee rs s).files = rs.foldl (add Reception.entry) s.files := by
  rw [receiveAll_files passes]
  simp only [Reception.append_entry]

/-- Two orders of arrival that agree for each sender leave the same files, if
`syslogProcess` gets through every text. -/
theorem senders_apart (rs rs' : List Reception) (dotted : ∀ r ∈ rs ++ rs', Dotted r.ip)
    (passes : ∀ r ∈ rs ++ rs', r.Passes)
    (same : ∀ ip, rs.filter (fun r => r.ip = ip) = rs'.filter (fun r => r.ip = ip)) (s : RetReceive) :
    (receiveAll host callee rs s).files = (receiveAll host callee rs' s).files := by
  rw [receiveAll_eq fun r hr => passes r (List.mem_append_left _ (List.mem_of_mem_dropLast hr)),
    receiveAll_eq fun r hr => passes r (List.mem_append_right _ (List.mem_of_mem_dropLast hr))]
  apply foldl_add_congr _ same
  intro r hr r' hr' path text text' writes writes'
  have paths := (Reception.entry_path writes).symm.trans (Reception.entry_path writes')
  exact (filePath_inj (dotted r hr) (dotted r' hr') paths).1

end Arrivals

/-- A datagram that is written in full. -/
def datagram (ip bytes : String) : Reception where
  ip := ip.toList
  bytes := bytes.toList
  sysTime := "Mon Jan  1 00:00:00 2018\n".toList
  opened := true
  room := 300

def firstRecord : Reception := datagram "10.0.0.1" "record ioevt 1 1 p; key"
def talkLog : Reception := datagram "10.0.0.1" "client 1 doubleTalk"
def secondRecord : Reception := datagram "10.0.0.1" "record ioevt 1 2 l;\nlook;"
def otherLog : Reception := datagram "10.0.0.2" "client 2 suspended"

/-- The log of another phone comes among the datagrams of one. -/
def arrivals : List Reception := [firstRecord, otherLog, talkLog, secondRecord]

/-- The other phone is slower. -/
def laterArrivals : List Reception := [firstRecord, talkLog, secondRecord, otherLog]

theorem senders_apart_arrivals :
    (receiveAll (.willing (fun _ => 5) (fun _ => none) fun _ => none) (fun _ => .ok) arrivals
      nothingReceived).files =
    (receiveAll (.willing (fun _ => 5) (fun _ => none) fun _ => none) (fun _ => .ok) laterArrivals
      nothingReceived).files := by
  apply senders_apart arrivals laterArrivals (by decide) (by decide +kernel)
  intro ip
  by_cases other : otherLog.ip = ip
  · have apart : firstRecord.ip ≠ ip ∧ talkLog.ip ≠ ip ∧ secondRecord.ip ≠ ip := by
      rw [← other]
      decide
    simp [arrivals, laterArrivals, List.filter_cons, apart]
  · simp [arrivals, laterArrivals, List.filter_cons, other]

/-! ## The commands of a phone -/

/-- What the records of an address stand for, in the order of arrival. -/
def commandsOf (ip : Text) (rs : List Reception) : List Text :=
  (rs.filter fun r => r.ip = ip ∧ r.records = true).flatMap fun r => expectedEntries r.recorded

/-- A file that a record may follow. -/
def Ended (file : Text) : Prop := file = [] ∨ file.getLast? = some '\n'

instance (file : Text) : Decidable (Ended file) := inferInstanceAs (Decidable (_ ∨ _))

theorem ended_append {file : Text} (ended : Ended file) (rest : Text) :
    scriptContent (file ++ rest) = scriptContent file ++ scriptContent rest := by
  rcases ended with rfl | last
  · rfl
  · obtain ⟨front, rfl⟩ := List.getLast?_eq_some_iff.mp last
    rw [List.append_assoc, List.singleton_append, scriptContent_append, scriptContent_append,
      scriptContent_nil, List.append_nil]

/-- Each record is read as it was sent, since none is as long as the buffer. -/
theorem records_read (rs : List Reception) :
    scriptContent (rs.flatMap fun r => r.recorded ++ ['\n']) =
    rs.flatMap fun r => expectedEntries r.recorded := by
  induction rs with
  | nil => rfl
  | cons r rs ih =>
    have short : r.recorded.length ≤ maxCmdLen - 1 := by
      have := r.recorded_short
      simp only [maxLogSize, maxCmdLen] at this ⊢
      omega
    rw [List.flatMap_cons, List.append_assoc, List.singleton_append, scriptContent_append, ih,
      scriptContent_short short, List.flatMap_cons]

section Record

variable {host : Host} {callee : Text → World → Except Fault World}

theorem record_file {ip : Text} {rs : List Reception} (dotted : Dotted ip)
    (senders : ∀ r ∈ rs, Dotted r.ip) (passes : ∀ r ∈ rs.dropLast, r.Passes)
    (written : ∀ r ∈ rs, r.ip = ip → r.records = true → r.Written) (s : RetReceive) :
    (receiveAll host callee rs s).files (recordPath ip) = s.files (recordPath ip) ++
      (rs.filter fun r => r.ip = ip ∧ r.records = true).flatMap fun r => r.recorded ++ ['\n'] := by
  rw [receiveAll_eq passes, foldl_add]
  congr 1
  clear passes
  induction rs with
  | nil => rfl
  | cons r rs ih =>
    have rest := ih (fun s hs => senders s (by simp [hs])) fun s hs => written s (by simp [hs])
    rw [List.flatMap_cons, Reception.added_record dotted (senders r (by simp))
      (written r (by simp)), rest, List.filter_cons]
    by_cases own : r.ip = ip ∧ r.records = true
    · simp [own]
    · simp [own]

/-- Whatever arrives from whom, the record file of an address is read back as
what it was read as before, and then the commands of its own records, if
`syslogProcess` gets through every text but the last. -/
theorem record_amid (ip : Text) (rs : List Reception) (s : RetReceive) (dotted : Dotted ip)
    (senders : ∀ r ∈ rs, Dotted r.ip) (passes : ∀ r ∈ rs.dropLast, r.Passes)
    (written : ∀ r ∈ rs, r.ip = ip → r.records = true → r.Written)
    (ended : Ended (s.files (recordPath ip)))
    (few : (scriptContent (s.files (recordPath ip)) ++ commandsOf ip rs).length ≤ maxScLine) :
    ReadBack ((receiveAll host callee rs s).files (recordPath ip))
      (scriptContent (s.files (recordPath ip)) ++ commandsOf ip rs) := by
  apply (readBack_iff few).mpr
  rw [record_file dotted senders passes written, ended_append ended, records_read]
  rfl

end Record

theorem record_amid_arrivals :
    ReadBack
      ((receiveAll (.willing (fun _ => 5) (fun _ => none) fun _ => none) (fun _ => .ok) arrivals
        { nothingReceived with files := fun _ => "dy 1;\n".toList }).files
          (recordPath "10.0.0.1".toList))
      ["dy 1".toList, " ioevt 1 1 p".toList, " ioevt 1 2 l".toList, "look".toList] :=
  record_amid "10.0.0.1".toList arrivals { nothingReceived with files := fun _ => "dy 1;\n".toList }
    (by decide) (by decide) (by decide +kernel) (by decide) (by decide) (by decide +kernel)

end AutoTest
