import AutoTest.Buffers
import AutoTest.Record

/-!
# How a log line is built

One round of `ret_receive` in its four arrays: the datagram in `buf`, the time
in `tmp`, the name of the file in `logPath` and the line in `log`. Terminators
are set by index before and after the arrays are used.

* `receiveRound`: the round up to the call of `syslogProcess`.
* `log_round`: the line that is written, and where the arrays are accessed.
* `closing_zero_outside`: the last terminator of a line lies after `log`.
-/

namespace AutoTest

open CString Strtok Buffers

def maxPathLenth : Nat := 50

/-- `inet_ntoa` -/
def inetNtoa (a b c d : Fin 256) : Text :=
  toText a ++ ".".toList ++ toText b ++ ".".toList ++ toText c ++ ".".toList ++ toText d

/-- A datagram, any zero in it being `none`, and what the host does about it. -/
structure Arrival where
  bytes : List Cell
  ip : Text
  /-- the sender is an address -/
  dotted : ∃ a b c d, ip = inetNtoa a b c d
  /-- what `ctime` returns -/
  ctime : Text
  stamp : ctime.length = 25
  /-- whether the file could be opened for appending -/
  opened : Bool

structure LogArrays where
  logPath : CharArray maxPathLenth
  tmp : CharArray maxPathLenth
  buf : CharArray maxLogSize
  log : CharArray maxBuffSize

namespace Arrival

variable (r : Arrival)

/-- The text of a datagram: up to its first zero, and no more than 149 bytes. -/
def text : Text := cstring (r.bytes.take (maxLogSize - 1))

/-- The datagram fills the array and has no zero there. -/
def Unterminated : Prop := maxLogSize ≤ r.bytes.length ∧ none ∉ r.bytes.take maxLogSize

/-- What is written about a text, without the newline. -/
def content : Text :=
  match strstr cmdRecord r.text with
  | some p => p.drop cmdRecord.length
  | none => r.ctime.dropLast ++ ": ".toList ++ r.text

def line : Text := r.content ++ "\n".toList

def path (record : Bool) : Text :=
  logDir ++ "/".toList ++ r.ip ++ if record then "_".toList ++ cmdRecord else []

end Arrival

namespace LogArrays

/-- The arrays at the start of a round, before anything is accessed. -/
def fresh (f : LogArrays) : LogArrays where
  logPath := { f.logPath with touched := [] }
  tmp := { f.tmp with touched := [] }
  buf := { f.buf with touched := [] }
  log := { f.log with touched := [] }

/-- The four `memset`. -/
def clear (f : LogArrays) : LogArrays :=
  { tmp := f.tmp.clear, buf := f.buf.clear, log := f.log.clear, logPath := f.logPath.clear }

/-- `recvfrom(syslogSockFd,buf,sizeof(buf),..)` -/
def recvfrom (r : Arrival) (f : LogArrays) : Int × LogArrays :=
  let received := r.bytes.take maxLogSize
  (received.length, { f with buf := f.buf.write 0 received })

/-- `sprintf(logPath,..)` and `logPath[strlen(logPath)] = '\0'` -/
def setPath (path : Text) (f : LogArrays) : LogArrays :=
  let (n, logPath) := (f.logPath.put path).strlen
  { f with logPath := logPath.store n none }

/-- The text after the marker at `p`. -/
def composeRecord (r : Arrival) (p : Nat) (f : LogArrays) : LogArrays :=
  let f := f.setPath (r.path true)
  let (t, buf) := f.buf.string (p + cmdRecord.length)
  { f with buf := buf, log := f.log.put (t.take (maxBuffSize - 1)) }

/-- The time, of which the newline is cut, and the text. -/
def composeStamped (r : Arrival) (f : LogArrays) : LogArrays :=
  let f := f.setPath (r.path false)
  let (n, tmp) := (f.tmp.put r.ctime).strlen
  let tmp := tmp.store (n - 1) none
  let (time, tmp) := tmp.string 0
  let (t, buf) := f.buf.string 0
  { f with tmp := tmp, buf := buf, log := f.log.put (time ++ ": ".toList ++ t) }

/-- From `buf[sizeof(buf) -1] = '\0'` up to the call of `fopen`. -/
def compose (r : Arrival) (f : LogArrays) : LogArrays :=
  let (p, buf) := (f.buf.store (maxLogSize - 1) none).find cmdRecord
  let f := { f with buf := buf }
  match p with
  | some p => f.composeRecord r p
  | none => f.composeStamped r

end LogArrays

/-- `log[strlen(log)] = '\n'` -/
def putNewline (log : CharArray maxBuffSize) : CharArray maxBuffSize :=
  let (n, log) := log.strlen
  log.store n (some '\n')

/-- `log[strlen(log)+1] = '\0'` and `log[sizeof(log)] = '\0'` -/
def putZeros (log : CharArray maxBuffSize) : CharArray maxBuffSize :=
  let (n, log) := log.strlen
  (log.store (n + 1) none).store maxBuffSize none

def endLine (log : CharArray maxBuffSize) : CharArray maxBuffSize := putZeros (putNewline log)

/-- The arrays after a round, and what was passed to `fwrite`. -/
structure Round where
  arrays : LogArrays
  written : List (List Cell)

def receiveRound (r : Arrival) (f : LogArrays) : Round :=
  let (ret, f) := f.fresh.clear.recvfrom r
  if ret > 0 then
    let (n, buf) := f.buf.strlen
    let f := { f with buf := buf }
    if n > 0 then
      let f := f.compose r
      let f := { f with logPath := (f.logPath.string 0).2 }
      if r.opened then
        let (n, log) := (endLine f.log).strlen
        let (written, log) := log.load n
        -- the number of characters written is compared with the length
        ⟨{ f with log := log.strlen.2 }, [written]⟩
      else ⟨f, []⟩
    else ⟨f, []⟩
  else ⟨f, []⟩

/-- Every index lies inside its array, but for one access to `log[sizeof(log)]`.
Nothing is said about `buf` where a datagram leaves it without a terminator. -/
structure InBounds (r : Arrival) (f : LogArrays) : Prop where
  logPath : f.logPath.Inside maxPathLenth
  tmp : f.tmp.Inside maxPathLenth
  buf : ¬ r.Unterminated → f.buf.Inside maxLogSize
  log : f.log.InsideBut maxBuffSize

/-- A round writes one line and stays inside the arrays. -/
structure LogsLine (r : Arrival) (f : LogArrays) : Prop where
  written : (receiveRound r f).written = [cells r.line]
  logPath : (receiveRound r f).arrays.logPath.Inside maxPathLenth
  tmp : (receiveRound r f).arrays.tmp.Inside maxPathLenth
  buf : (receiveRound r f).arrays.buf.Inside maxLogSize
  log : (receiveRound r f).arrays.log.Inside maxBuffSize

/-! ## The lengths -/

theorem cstring_length_le (l : List Cell) : (cstring l).length ≤ l.length := by
  induction l with
  | nil => simp
  | cons c l ih =>
    cases c with
    | none => simp [cstring]
    | some c => simpa [cstring] using ih

namespace Arrival

variable (r : Arrival)

theorem text_short : r.text.length < maxLogSize := by
  have short := cstring_length_le (r.bytes.take (maxLogSize - 1))
  simp only [text, List.length_take, maxLogSize] at short ⊢
  omega

theorem content_short : r.content.length + 1 < maxBuffSize - 1 := by
  have short := r.text_short
  have stamp := r.stamp
  simp only [maxLogSize, maxBuffSize] at short ⊢
  unfold content
  split
  · rename_i p found
    have part := (strstr_suffix found).length_le
    simp only [List.length_drop]
    omega
  · have colon : ": ".toList.length = 2 := rfl
    simp only [List.length_append, List.length_dropLast, colon]
    omega

theorem path_short (record : Bool) : (r.path record).length < maxPathLenth := by
  obtain ⟨a, b, c, d, dotted⟩ := r.dotted
  have number : ∀ n : Fin 256, (toText n).length ≤ 3 := by decide +kernel
  have ha := number a
  have hb := number b
  have hc := number c
  have hd := number d
  have dot : ".".toList.length = 1 := rfl
  have slash : "/".toList.length = 1 := rfl
  have dir : logDir.length = 5 := rfl
  have ending : (if record then "_".toList ++ cmdRecord else []).length ≤ 7 := by
    cases record <;> decide
  simp only [path, dotted, inetNtoa, List.length_append, dot, slash, dir, maxPathLenth]
  omega

end Arrival

/-! ## The parts of a round -/

section Parts

variable {r : Arrival} {f : LogArrays}

theorem setPath_holds (empty : f.logPath.Holds []) {path : Text}
    (short : path.length < maxPathLenth) : (f.setPath path).logPath.Holds path := by
  have put := empty.put short
  have length : (f.logPath.put path).strlen.1 = path.length := congrArg List.length put.text
  have holds : ((f.logPath.put path).strlen.2.store path.length none).Holds path :=
    put.touch.store_zero (Nat.le_refl _) (Nat.le_of_lt short)
  rw [← length] at holds
  exact holds

theorem setPath_inside (empty : f.logPath.Holds []) {path : Text} (short : path.length < maxPathLenth)
    (inside : f.logPath.Inside maxPathLenth) : (f.setPath path).logPath.Inside maxPathLenth := by
  have text := (empty.put short).text
  have put : (f.logPath.put path).Inside maxPathLenth := inside.put short
  have read : (f.logPath.put path).strlen.2.Inside maxPathLenth :=
    put.strlen (by rw [text]; exact short)
  apply read.store
  show (f.logPath.put path).text.length < maxPathLenth
  rw [text]
  exact short

/-- The bounds as they are before the line is ended. -/
structure Unended (r : Arrival) (f : LogArrays) : Prop where
  logPath : f.logPath.Inside maxPathLenth
  tmp : f.tmp.Inside maxPathLenth
  buf : ¬ r.Unterminated → f.buf.Inside maxLogSize
  log : f.log.Inside maxBuffSize

theorem Unended.inBounds (bounds : Unended r f) : InBounds r f :=
  ⟨bounds.logPath, bounds.tmp, bounds.buf, bounds.log.but⟩

/-- The arrays when a datagram has been received. -/
structure Received (r : Arrival) (f : LogArrays) : Prop where
  logPath : f.logPath.Holds []
  tmp : f.tmp.Holds []
  log : f.log.Holds []
  buf : (f.buf.store (maxLogSize - 1) none).text = r.text
  inside : Unended r f

/-- The arrays when the text has been searched. -/
structure Searched (r : Arrival) (f : LogArrays) : Prop where
  logPath : f.logPath.Holds []
  tmp : f.tmp.Holds []
  log : f.log.Holds []
  buf : f.buf.text = r.text
  inside : Unended r f

/-- The arrays when the file is opened. -/
structure Composed (r : Arrival) (f : LogArrays) : Prop where
  logPath : ∃ record, f.logPath.Holds (r.path record)
  log : f.log.Holds r.content
  inside : Unended r f

/-- `strstr` returns where the rest begins that the text is cut to. -/
theorem suffix_start {needle t p : Text} (found : strstr needle t = some p) :
    t.length - p.length + needle.length ≤ t.length ∧
      t.drop (t.length - p.length + needle.length) = p.drop needle.length := by
  obtain ⟨before, rfl⟩ := strstr_suffix found
  have begins := strstr_prefix found
  have long := begins.length_le
  simp only [List.length_append, Nat.add_sub_cancel]
  refine ⟨by omega, ?_⟩
  rw [List.drop_append, List.drop_of_length_le (by omega), List.nil_append]
  congr 1
  omega

theorem Searched.composeRecord (searched : Searched r f) {p : Text}
    (found : strstr cmdRecord r.text = some p) :
    Composed r (f.composeRecord r (r.text.length - p.length)) := by
  obtain ⟨logPath, tmp, log, buf, inside⟩ := searched
  obtain ⟨start, rest⟩ := suffix_start found
  have reached : r.text.length - p.length + cmdRecord.length ≤ f.buf.text.length := by
    rw [buf]
    exact start
  have short := r.text_short
  have content := r.content_short
  have text : (f.buf.string (r.text.length - p.length + cmdRecord.length)).1.take (maxBuffSize - 1) =
      r.content := by
    rw [CharArray.string_drop reached, buf, rest, Arrival.content, found]
    apply List.take_of_length_le
    have part := (strstr_suffix found).length_le
    simp only [List.length_drop, maxLogSize, maxBuffSize] at *
    omega
  have written : (f.composeRecord r (r.text.length - p.length)).log = f.log.put r.content :=
    congrArg (fun t => f.log.put t) text
  refine ⟨⟨true, setPath_holds logPath (r.path_short true)⟩, ?_, ⟨?_, inside.tmp, ?_, ?_⟩⟩
  · rw [written]
    exact log.put (by omega)
  · exact setPath_inside logPath (r.path_short true) inside.logPath
  · intro ends
    exact (inside.buf ends).string reached (by rw [buf]; exact short)
  · rw [written]
    exact inside.log.put (by omega)

/-- The time without its newline. -/
theorem stamp_holds (empty : f.tmp.Holds []) (r : Arrival) :
    (f.tmp.put r.ctime).strlen.1 = r.ctime.length ∧
    ((f.tmp.put r.ctime).strlen.2.store (r.ctime.length - 1) none).Holds r.ctime.dropLast := by
  have stamp : r.ctime.length < maxPathLenth := by
    rw [r.stamp]
    decide
  have put := empty.put stamp
  exact ⟨congrArg List.length put.text, put.touch.cut⟩

theorem Searched.composeStamped (searched : Searched r f) (plain : strstr cmdRecord r.text = none) :
    Composed r (f.composeStamped r) := by
  obtain ⟨logPath, tmp, log, buf, inside⟩ := searched
  have short := r.text_short
  have content := r.content_short
  have stamp : r.ctime.length < maxPathLenth := by
    rw [r.stamp]
    decide
  obtain ⟨n, time⟩ := stamp_holds tmp r
  rw [← n] at time
  have text : ((((f.tmp.put r.ctime).strlen.2.store ((f.tmp.put r.ctime).strlen.1 - 1)
    none).string 0).1 ++
      ": ".toList ++ (f.buf.string 0).1) = r.content := by
    rw [CharArray.string_all, CharArray.string_all, time.text, buf, Arrival.content, plain]
  have written : (f.composeStamped r).log = f.log.put r.content :=
    congrArg (fun t => f.log.put t) text
  refine ⟨⟨false, setPath_holds logPath (r.path_short false)⟩, ?_, ⟨?_, ?_, ?_, ?_⟩⟩
  · rw [written]
    exact log.put (by omega)
  · exact setPath_inside logPath (r.path_short false) inside.logPath
  · have put : (f.tmp.put r.ctime).Inside maxPathLenth := inside.tmp.put stamp
    have read : (f.tmp.put r.ctime).strlen.2.Inside maxPathLenth :=
      put.strlen (by rw [(tmp.put stamp).text]; exact stamp)
    have cut := read.store (c := none) (p := (f.tmp.put r.ctime).strlen.1 - 1) (by rw [n]; omega)
    exact cut.string (Nat.zero_le _) (by rw [time.text]; exact time.short)
  · intro ends
    exact (inside.buf ends).string (Nat.zero_le _) (by rw [buf]; exact short)
  · rw [written]
    exact inside.log.put (by omega)

theorem Received.strlen (received : Received r f)
    (terminated : ¬ r.Unterminated → f.buf.text.length < maxLogSize) :
    Received r { f with buf := f.buf.strlen.2 } := by
  obtain ⟨logPath, tmp, log, buf, inside⟩ := received
  refine ⟨logPath, tmp, log, buf, inside.logPath, inside.tmp, ?_, inside.log⟩
  intro ends
  exact (inside.buf ends).strlen (terminated ends)

theorem Received.search (received : Received r f) :
    Searched r { f with buf := ((f.buf.store (maxLogSize - 1) none).find cmdRecord).2 } := by
  obtain ⟨logPath, tmp, log, buf, inside⟩ := received
  refine ⟨logPath, tmp, log, buf, inside.logPath, inside.tmp, ?_, inside.log⟩
  intro ends
  have stored := (inside.buf ends).store (c := none) (p := maxLogSize - 1) (by decide)
  exact stored.find (by rw [buf]; exact r.text_short) cmdRecord

theorem Received.compose (received : Received r f) : Composed r (f.compose r) := by
  have here : ((f.buf.store (maxLogSize - 1) none).find cmdRecord).1 =
      (strstr cmdRecord r.text).map fun p => r.text.length - p.length :=
        CharArray.find_fst received.buf
  unfold LogArrays.compose
  cases found : strstr cmdRecord r.text with
  | some p =>
    simp only [here, found, Option.map_some]
    exact received.search.composeRecord found
  | none =>
    simp only [here, found, Option.map_none]
    exact received.search.composeStamped found

/-! ## The datagram -/

/-- The arrays after the datagram has been received. -/
theorem recvfrom_cell (r : Arrival) (f : LogArrays) {i : Nat} (inside : i < maxLogSize) :
    (f.fresh.clear.recvfrom r).2.buf.cell i = (r.bytes.take maxLogSize).getD i none := by
  show (CharArray.write 0 (r.bytes.take maxLogSize) f.fresh.buf.clear).cell i = _
  rw [CharArray.cell_write (Nat.zero_le _), CharArray.cell_clear inside]
  simp only [Nat.zero_le, true_and, Nat.zero_add, Nat.sub_zero]
  split
  · rfl
  · rw [List.getD_eq_getElem?_getD, List.getElem?_eq_none (by omega), Option.getD_none]

theorem recvfrom_empty (r : Arrival) (f : LogArrays) :
    (f.fresh.clear.recvfrom r).2.buf.text = [] ↔ r.text = [] := by
  rw [CharArray.text_eq_nil_iff, recvfrom_cell r f (by decide), Arrival.text]
  cases r.bytes with
  | nil => simp
  | cons c bytes => cases c <;> simp [cstring, maxLogSize]

/-- The last byte is cleared, and the text cut there. -/
theorem recvfrom_text (r : Arrival) (f : LogArrays) :
    ((f.fresh.clear.recvfrom r).2.buf.store (maxLogSize - 1) none).text = r.text := by
  apply CharArray.text_eq
  intro i hi
  have short := r.text_short
  rw [CharArray.cell_store (by decide)]
  split
  · rename_i last
    rw [List.getElem?_eq_none (by omega)]
  · rename_i before
    have part : (r.bytes.take maxLogSize).getD i none =
        (r.bytes.take (maxLogSize - 1)).getD i none := by
      simp only [List.getD_eq_getElem?_getD, List.getElem?_take]
      rw [if_pos (by omega), if_pos (by omega)]
    rw [recvfrom_cell r f (by omega), part]
    exact CharArray.cstring_cell _ i hi

theorem recvfrom_terminated {r : Arrival} (ends : ¬ r.Unterminated) (f : LogArrays) :
    (f.fresh.clear.recvfrom r).2.buf.text.length < maxLogSize := by
  obtain ⟨i, inside, zero⟩ : ∃ i < maxLogSize, (r.bytes.take maxLogSize).getD i none = none := by
    by_cases long : maxLogSize ≤ r.bytes.length
    · have present : none ∈ r.bytes.take maxLogSize := by
        by_contra absent
        exact ends ⟨long, absent⟩
      obtain ⟨i, here⟩ := List.mem_iff_getElem?.mp present
      obtain ⟨inside, -⟩ := List.getElem?_eq_some_iff.mp here
      simp only [List.length_take] at inside
      exact ⟨i, by omega, by simp [List.getD_eq_getElem?_getD, here]⟩
    · refine ⟨r.bytes.length, by omega, ?_⟩
      have ended := List.length_take_le' maxLogSize r.bytes
      rw [List.getD_eq_getElem?_getD, List.getElem?_eq_none ended, Option.getD_none]
  have first := CharArray.text_length_le ((recvfrom_cell r f inside).trans zero)
  omega

theorem recvfrom_bounds (r : Arrival) (f : LogArrays) : Unended r (f.fresh.clear.recvfrom r).2 := by
  have none_yet {size : Nat} (a : CharArray size) (n : Nat) :
      ({ a with touched := [] } : CharArray size).Inside n := fun i hi => absurd hi List.not_mem_nil
  constructor
  · exact (none_yet f.logPath _).clear (Nat.le_refl _)
  · exact (none_yet f.tmp _).clear (Nat.le_refl _)
  · intro _
    apply ((none_yet f.buf _).clear (Nat.le_refl _)).write
    exact (Nat.zero_add _).le.trans (List.length_take_le _ _)
  · exact (none_yet f.log _).clear (by decide)

theorem recvfrom_received (r : Arrival) (f : LogArrays) :
    Received r (f.fresh.clear.recvfrom r).2 where
  logPath := CharArray.clear_holds (by decide)
  tmp := CharArray.clear_holds (by decide)
  log := CharArray.clear_holds (by decide)
  buf := recvfrom_text r f
  inside := recvfrom_bounds r f

end Parts

/-! ## The end of the line -/

section Line

variable {log : CharArray maxBuffSize} {t : Text}

theorem putNewline_holds (holds : log.Holds t) (short : t.length + 1 < maxBuffSize) :
    (putNewline log).Holds (t ++ ['\n']) := by
  obtain ⟨length, read⟩ := holds.strlen
  have next : (log.strlen.2.store t.length (some '\n')).Holds (t ++ ['\n']) := read.store_next short
  rw [← length] at next
  exact next

theorem putNewline_inside (holds : log.Holds t) (inside : log.Inside maxBuffSize) :
    (putNewline log).Inside maxBuffSize := by
  obtain ⟨length, -⟩ := holds.strlen
  have short := holds.short
  have read : log.strlen.2.Inside maxBuffSize := inside.strlen (by rw [holds.text]; omega)
  exact read.store (p := log.strlen.1) (by omega)

theorem putZeros_holds (holds : log.Holds t) (short : t.length + 1 < maxBuffSize) :
    (putZeros log).Holds t := by
  obtain ⟨length, read⟩ := holds.strlen
  have ended : (log.strlen.2.store (log.strlen.1 + 1) none).Holds t :=
    read.store_zero (by omega) (by omega)
  exact ended.store_zero (Nat.le_of_lt holds.short) (Nat.le_refl _)

theorem putZeros_inside (holds : log.Holds t) (short : t.length + 1 < maxBuffSize)
    (inside : log.Inside maxBuffSize) : (putZeros log).InsideBut maxBuffSize := by
  obtain ⟨length, -⟩ := holds.strlen
  have read : log.strlen.2.Inside maxBuffSize := inside.strlen (by rw [holds.text]; omega)
  have ended : (log.strlen.2.store (log.strlen.1 + 1) none).Inside maxBuffSize :=
    read.store (by omega)
  exact ended.store_at none

end Line

/-! ## The round -/

theorem Composed.opened {r : Arrival} {f : LogArrays} (composed : Composed r f) :
    Composed r { f with logPath := (f.logPath.string 0).2 } := by
  obtain ⟨⟨record, path⟩, log, inside⟩ := composed
  refine ⟨⟨record, path.touch⟩, log, ?_, inside.tmp, inside.buf, inside.log⟩
  exact inside.logPath.string (Nat.zero_le _) (by rw [path.text]; exact path.short)

/-- The line is written as a whole. -/
theorem Composed.written {r : Arrival} {f : LogArrays} (composed : Composed r f) :
    ((endLine f.log).strlen.2.load (endLine f.log).strlen.1).1 = cells r.line ∧
      ((endLine f.log).strlen.2.load (endLine f.log).strlen.1).2.strlen.2.InsideBut maxBuffSize := by
  have log := composed.log
  have content := r.content_short
  have inside := composed.inside.log
  have newline : (putNewline f.log).Holds r.line := putNewline_holds log (by omega)
  have length : r.line.length = r.content.length + 1 := by simp [Arrival.line]
  have line : (endLine f.log).Holds r.line := putZeros_holds newline (by omega)
  have ended : (endLine f.log).InsideBut maxBuffSize :=
    putZeros_inside newline (by omega) (putNewline_inside log inside)
  obtain ⟨n, read⟩ := line.strlen
  have short := line.short
  rw [n]
  refine ⟨read.load_all, ?_⟩
  have counted : (endLine f.log).strlen.2.InsideBut maxBuffSize :=
    ended.strlen (by rw [line.text]; omega)
  have loaded : ((endLine f.log).strlen.2.load r.line.length).2.InsideBut maxBuffSize :=
    counted.load (by omega)
  apply loaded.strlen
  show (endLine f.log).text.length < maxBuffSize
  rw [line.text]
  omega

section Round

variable (r : Arrival) (f : LogArrays)

theorem recvfrom_some {r : Arrival} (f : LogArrays) (filled : r.text ≠ []) :
    (f.fresh.clear.recvfrom r).1 > 0 := by
  have some_bytes : 0 < (r.bytes.take maxLogSize).length := by
    cases hbytes : r.bytes with
    | nil => simp [Arrival.text, hbytes] at filled
    | cons c bytes => simp [maxLogSize]
  exact Int.natCast_pos.mpr some_bytes

theorem strlen_some {r : Arrival} (f : LogArrays) (filled : r.text ≠ []) :
    (f.fresh.clear.recvfrom r).2.buf.strlen.1 > 0 := by
  apply List.length_pos_iff.mpr
  exact fun empty => filled ((recvfrom_empty r f).mp empty)

theorem receiveRound_empty (empty : r.text = []) : (receiveRound r f).written = [] ∧
    InBounds r (receiveRound r f).arrays := by
  have bounds := recvfrom_bounds r f
  have n : (f.fresh.clear.recvfrom r).2.buf.strlen.1 = 0 := by
    show (f.fresh.clear.recvfrom r).2.buf.text.length = 0
    rw [(recvfrom_empty r f).mpr empty]
    rfl
  unfold receiveRound
  simp only [n]
  split
  · refine ⟨rfl, bounds.logPath, bounds.tmp, ?_, bounds.log.but⟩
    intro ends
    exact (bounds.buf ends).strlen (recvfrom_terminated ends f)
  · exact ⟨rfl, bounds.inBounds⟩

theorem receiveRound_text (filled : r.text ≠ []) :
    (receiveRound r f).written = (if r.opened = true then [cells r.line] else []) ∧
      InBounds r (receiveRound r f).arrays := by
  have composed := ((recvfrom_received r f).strlen fun ends => recvfrom_terminated ends f).compose
  have bounds := composed.opened.inside
  obtain ⟨line, inside⟩ := composed.opened.written
  unfold receiveRound
  simp only [recvfrom_some f filled, strlen_some f filled, ↓reduceIte]
  split
  · exact ⟨by rw [line], bounds.logPath, bounds.tmp, bounds.buf, inside⟩
  · exact ⟨rfl, bounds.inBounds⟩

/-- Each line that is written has its last terminator after `log`. -/
theorem closing_zero_outside (filled : r.text ≠ []) (opened : r.opened = true) :
    maxBuffSize ∈ (receiveRound r f).arrays.log.touched := by
  unfold receiveRound
  simp only [recvfrom_some f filled, strlen_some f filled, opened, ↓reduceIte]
  apply CharArray.mem_touched_touch
  apply CharArray.mem_touched_touch
  apply CharArray.mem_touched_touch
  exact CharArray.mem_touched_store _ _ _

/-- A datagram with a text is written as its line, if the file can be opened,
and any other leaves no trace. -/
theorem log_round :
    (receiveRound r f).written = (if r.text ≠ [] ∧ r.opened = true then [cells r.line] else []) ∧
      InBounds r (receiveRound r f).arrays := by
  by_cases empty : r.text = []
  · simpa [empty] using receiveRound_empty r f empty
  · simpa [empty] using receiveRound_text r f empty

end Round

/-- A datagram of no bytes. -/
def emptyDatagram : Arrival where
  bytes := []
  ip := "10.0.0.1".toList
  dotted := ⟨10, 0, 0, 1, by decide⟩
  ctime := "Mon Jan  1 00:00:00 2018\n".toList
  stamp := by decide
  opened := true

/-- It is passed over. -/
theorem emptyDatagram_unlogged : ¬ ∀ r f, LogsLine r f := by
  intro logs
  let f : LogArrays := ⟨.blank _, .blank _, .blank _, .blank _⟩
  have written := (logs emptyDatagram f).written
  rw [(receiveRound_empty emptyDatagram f rfl).1] at written
  cases written

/-! ## The round on texts -/

/-- The same round as `Reception` has it. -/
def Arrival.reception (r : Arrival) (room : Nat) : Reception :=
  ⟨r.ip, r.text, r.ctime, r.opened, room⟩

theorem reception_buf (r : Arrival) (room : Nat) : (r.reception room).buf = r.text :=
  List.take_of_length_le (Nat.le_sub_one_of_lt r.text_short)

theorem reception_log (r : Arrival) (room : Nat) : (r.reception room).log = r.line := by
  have short := r.content_short
  unfold Reception.log Arrival.line Arrival.content at *
  rw [reception_buf]
  cases found : strstr cmdRecord r.text with
  | some p =>
    simp only [found] at short ⊢
    rw [List.take_of_length_le (by omega)]
  | none => rfl

/-- What is passed to `fwrite` and then to `syslogProcess` is the text of that round. -/
theorem receiveRound_reception (r : Arrival) (f : LogArrays) (room : Nat) :
    (receiveRound r f).written = (r.reception room).logged.toList.map cells := by
  unfold Reception.logged
  rw [reception_buf, reception_log]
  by_cases empty : r.text = []
  · simp [empty, (receiveRound_empty r f empty).1]
  · rw [(receiveRound_text r f empty).1]
    cases opened : r.opened with
    | true => simp [Arrival.reception, opened, empty]
    | false => simp [Arrival.reception, opened]

end AutoTest
