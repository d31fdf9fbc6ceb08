import AutoTest.Directory
import AutoTest.Numerals
import AutoTest.Observation
import AutoTest.ScriptFile

/-!
# The note of `quit`

`quit` appends a note to a file: the date, the counts of calls of every client,
and the scripts. It is text for a reader, who looks up the number on the line
of a client.

* `callReport_reads`: the number on a line is the count, up to the largest `int`.
* `Process.quit_notes`: what `quit` writes, whatever thread it runs in.
* `Process.noted_counts`: the reader finds how many calls of a client the whole
  run has reported.
-/

namespace AutoTest

open CString Program Cmd

/-! ## Lines of a note -/

/-- One line and its newline. -/
def OneLine (t : Text) : Prop := ∃ line, '\n' ∉ line ∧ t = line ++ ['\n']

/-- The number after the colon. -/
def readCount (line : Text) : Int := atoi ((line.dropWhile (· ≠ ':')).drop 1)

/-- The first line is the date; each type has a title and a line for a client. -/
def noteCount (note : Text) (type : Nat) (n : Client) : Int :=
  readCount ((physicalLines note).getD (2 + 11 * type + n) [])

theorem physicalLines_lines {lines : List Text} (one : ∀ line ∈ lines, '\n' ∉ line) (rest : Text) :
    physicalLines ((lines.flatMap fun line => line ++ ['\n']) ++ rest) =
      lines ++ physicalLines rest := by
  induction lines with
  | nil => rfl
  | cons line lines ih =>
    obtain ⟨here, later⟩ := List.forall_mem_cons.mp one
    rw [List.flatMap_cons, List.append_assoc, List.append_assoc, List.singleton_append,
      physicalLines_cons here, ih later, List.cons_append]

/-- What is written about a client, without the newline. -/
def countLine (i : Nat) (count : Int) : Text :=
  strClient ++ (toText i ++ ':' :: ' ' ::
    (toText count ++ ' ' :: (if count ≤ 1 then "time" else "times").toList))

theorem callReport_line (i : Nat) (count : Int) :
    callReport i count count = countLine i count ++ ['\n'] := by
  have words : timesText count = (if count ≤ 1 then "time" else "times").toList ++ ['\n'] := by
    unfold timesText
    split <;> rfl
  have colon : ": ".toList = [':', ' '] := rfl
  have space : cSpace = [' '] := rfl
  simp only [callReport, countLine, words, colon, space, List.append_assoc, List.cons_append,
    List.nil_append]

theorem countLine_one (i n : Nat) : '\n' ∉ countLine i n := by
  have word : '\n' ∉ (if (n : Int) ≤ 1 then "time" else "times").toList := by split <;> decide
  have name : '\n' ∉ strClient := by decide
  have digits (m : Nat) : '\n' ∉ toText m := not_mem_toText rfl
  unfold countLine
  generalize (if (n : Int) ≤ 1 then "time" else "times").toList = times at word
  simp [word, name, digits]

/-- The reader finds the count. -/
theorem callReport_reads (i : Nat) {n : Nat} (small : (n : Int) ≤ intMax) :
    readCount (countLine i n) = n := by
  have before : ∀ c ∈ strClient ++ toText i, decide (c ≠ ':') = true := by
    intro c hc
    have name : ':' ∉ strClient := by decide
    have digits : ':' ∉ toText i := not_mem_toText rfl
    apply decide_eq_true
    rintro rfl
    exact (List.mem_append.mp hc).elim name digits
  unfold readCount countLine
  rw [← List.append_assoc, List.dropWhile_append_of_pos before, List.dropWhile_cons_of_neg (by simp),
    List.drop_one, List.tail_cons, atoi_space]
  apply atoi_toText small
  rintro c ⟨⟩
  rfl

/-! ## The note -/

/-- The lines about one type of call. -/
def callLines (counts : Nat → Client → Int) (type : Nat) : List Text :=
  (callTypeTitle type).dropLast :: (List.finRange 10).map fun n : Client =>
    countLine n (counts type n)

/-- The date comes before the counts, and the scripts after them. -/
def Notes (counts : Nat → Client → Int) (note : Text) : Prop :=
  ∃ date scripts, OneLine date ∧
    note = date ++ ((callLines counts 0 ++ callLines counts 1).flatMap fun line =>
      line ++ ['\n']) ++ scripts

theorem Notes.count {calls : Nat → Client → Nat} {note : Text}
    (notes : Notes (fun type n => calls type n) note)
    {type : Nat} (known : type < 2) (n : Client) (small : (calls type n : Int) ≤ intMax) :
    noteCount note type n = calls type n := by
  obtain ⟨date, scripts, ⟨day, one, rfl⟩, rfl⟩ := notes
  generalize hcounts : (fun type n => (calls type n : Int)) = counts
  have newline (type : Nat) : ∀ line ∈ callLines counts type, '\n' ∉ line := by
    subst hcounts
    have title : '\n' ∉ (callTypeTitle type).dropLast := by
      unfold callTypeTitle
      split <;> decide
    simp only [callLines, List.forall_mem_cons, List.forall_mem_map]
    exact ⟨title, fun m _ => countLine_one m (calls type m)⟩
  have length (type : Nat) : (callLines counts type).length = 11 := by simp [callLines]
  have entry : (callLines counts type)[1 + (n : Nat)]? = some (countLine n (calls type n)) := by
    subst hcounts
    simp [callLines, Nat.add_comm 1]
  have found :
      (day :: (callLines counts 0 ++ callLines counts 1 ++ physicalLines scripts))[2 +
        11 * type + n]? =
        some (countLine n (calls type n)) := by
    have place : 2 + 11 * type + n = (11 * type + (1 + n)) + 1 := by omega
    rw [place, List.getElem?_cons_succ, List.append_assoc]
    rcases (by omega : type = 0 ∨ type = 1) with rfl | rfl
    · rw [Nat.mul_zero, Nat.zero_add, List.getElem?_append_left (by rw [length]; omega), entry]
    · rw [Nat.mul_one, List.getElem?_append_right (by rw [length]; omega), length,
        Nat.add_sub_cancel_left, List.getElem?_append_left (by rw [length]; omega), entry]
  rw [noteCount, List.append_assoc, List.append_assoc, List.singleton_append, physicalLines_cons one,
    physicalLines_lines (List.forall_mem_append.mpr ⟨newline 0, newline 1⟩),
      List.getD_eq_getElem?_getD, found,
    Option.getD_some, callReport_reads n small]

namespace Process

variable {host : Host} {self : Option Tid} {line : Text} {s t : Process} {counts : Nat → Client → Int}

/-- What an operation hands to the note. -/
def noted : Op → Text
  | .fwriteNote t => t
  | _ => []

theorem beside_of_group {o : Op} (h : decide (o.group ≠ .registry ∧ o.group ≠ .calls) = true) :
    o.Beside :=
  (of_decide_eq_true h : o.group ≠ .registry ∧ o.group ≠ .calls)

/-- However it may fail, what `p` writes is as `post` says. -/
abbrev Writes {α : Type} (host : Host) (self : Option Tid) (line : Text) (p : Cmd α)
    (post : α → Process × Text → Prop) (u : Process × Text) : Prop :=
  p.Leads (observing (operate host self line) noted) (fun _ => True) post u

/-- The counts, beside what was written. -/
def Counted (counts : Nat → Client → Int) (s : Process) : Prop := s.world.shared.gSuccessCall = counts

theorem fault_writes {α : Type} {f : Fault} {post : α → Process × Text → Prop} {u : Process × Text} :
    Writes host self line (Cmd.fault f) post u :=
  .op (fun r => r.elim) fun _ _ => trivial

/-- A text that does not fit ends the run. -/
theorem sprintf_writes {α : Type} {size : Nat} {text : Text} {f : Text → Cmd α}
    {post : α → Process × Text → Prop} {u : Process × Text}
    (next : Writes host self line (f text) post u) :
    Writes host self line (Cmd.sprintf size text >>= f) post u := by
  unfold Cmd.sprintf
  split
  · exact next
  · exact .bind_op (fun r => r.elim) fun _ _ => trivial

theorem noted_step {α : Type} {o : Op} {f : o.Res → Cmd α} {post : α → Process × Text → Prop}
    {written : Text}
    (counted : s.Counted counts) (beside : o.Beside) (next : ∀ r t, t.Counted counts →
      operate host self line o s = .ok (r, t) →
        Writes host self line (f r) post (t, written ++ noted o)) :
    Writes host self line (Prog.op o .pure >>= f) post (s, written) := by
  apply Prog.Leads.seen
  intro r t h
  exact next r t ((operate_beside beside h).2.trans counted) h

/-- An operation that writes nothing. -/
theorem silent_step {α : Type} {o : Op} {f : o.Res → Cmd α} {post : α → Process × Text → Prop}
    {written : Text} (silent : noted o = []) (counted : s.Counted counts) (beside : o.Beside)
    (next : ∀ r t, t.Counted counts →
      operate host self line o s = .ok (r, t) →
        Writes host self line (f r) post (t, written)) :
    Writes host self line (Prog.op o .pure >>= f) post (s, written) := by
  apply noted_step counted beside
  intro r t counted h
  rw [silent, List.append_nil]
  exact next r t counted h

/-- All that is written so far, and the counts that the process keeps. -/
def Wrote (counts : Nat → Client → Int) (written : Text) (u : Process × Text) : Prop :=
  u.1.Counted counts ∧ u.2 = written

theorem operate_getCountOfSuccessCall {type : Nat} {n : Client} {r : Int} (counted : s.Counted counts)
    (h : operate host self line (.getCountOfSuccessCall type n) s = .ok (r, t)) :
    r = counts type n := by
  obtain ⟨w, hread, -⟩ := operate_still rfl h
  simp only [interp] at hread
  split at hread
  · rename_i hshared
    cases hread
    have found := (reading_ok hshared).1
    simp only [Shared.getCountOfSuccessCall, clientIndex_cast] at found
    split at found
    · obtain rfl := Except.ok.inj found
      exact congrFun (congrFun counted type) n
    · cases found
  · cases hread

theorem noteClients_writes (j : Nat) (clients : List Client) (ret : Int) {written : Text}
    (counted : s.Counted counts) :
    Writes host self line (noteClients j (clients.map Fin.val) ret)
      (fun _ => Wrote counts (written ++ clients.flatMap fun n : Client =>
        callReport n (counts j n) (counts j n)))
      (s, written) := by
  induction clients generalizing ret s written with
  | nil => exact ⟨counted, by simp⟩
  | cons n clients ih =>
    rw [List.map_cons, noteClients]
    apply silent_step rfl counted (beside_of_group rfl)
    intro tested t counted' hread
    obtain rfl := operate_getCountOfSuccessCall counted hread
    apply silent_step rfl counted' (beside_of_group rfl)
    intro count u counted hread
    obtain rfl := operate_getCountOfSuccessCall counted' hread
    rw [List.flatMap_cons, ← List.append_assoc]
    generalize callReport n (counts j n) (counts j n) = report
    apply sprintf_writes
    apply noted_step (o := .fwriteNote report) counted (beside_of_group rfl)
    intro ret u counted _
    apply Prog.Leads.ite
    · intro _
      apply silent_step (o := .print _) rfl counted (beside_of_group rfl)
      exact fun _ _ counted _ => ih ret counted
    · exact fun _ => ih ret counted

theorem callLines_text (j : Nat) : (callLines counts j).flatMap (fun line => line ++ ['\n']) =
    callTypeTitle j ++ (List.finRange 10).flatMap fun n : Client =>
      callReport n (counts j n) (counts j n) := by
  have title : (callTypeTitle j).dropLast ++ ['\n'] = callTypeTitle j := by
    unfold callTypeTitle
    split <;> rfl
  simp only [callLines, List.flatMap_cons, title, List.flatMap_map, callReport_line]

theorem noteCalls_writes (j : Nat) {written : Text} (counted : s.Counted counts) :
    Writes host self line (noteCalls j)
      (fun _ => Wrote counts (written ++ (callLines counts j).flatMap fun line => line ++ ['\n']))
      (s, written) := by
  have whole : (callTypeTitle j).take (maxTmpLenth - 1) = callTypeTitle j := by
    unfold callTypeTitle
    split <;> rfl
  have clients : List.range 10 = (List.finRange 10 : List Client).map Fin.val := rfl
  unfold noteCalls
  rw [whole, clients, callLines_text, ← List.append_assoc]
  generalize callTypeTitle j = title
  apply noted_step (o := .fwriteNote title) counted (beside_of_group rfl)
  exact fun ret t counted _ => noteClients_writes j _ ret counted

theorem noteScript_writes (index : Nat) (tested count : Int) {written : Text}
    (counted : s.Counted counts) :
    Writes host self line (noteScript index tested count)
      (fun _ u => ∃ report, Wrote counts (written ++ report) u) (s, written) := by
  unfold noteScript
  apply silent_step rfl counted (beside_of_group rfl)
  intro name t counted _
  generalize scriptReport name tested count = report
  apply sprintf_writes
  apply Prog.Leads.seen
  intro ret u h
  exact ⟨report, (operate_beside (beside_of_group rfl) h).2.trans counted, rfl⟩

theorem noteScripts_writes (indices : List Nat) (ret : Int) {written : Text}
    (counted : s.Counted counts) :
    Writes host self line (noteScripts indices ret)
      (fun _ u => ∃ scripts, Wrote counts (written ++ scripts) u) (s, written) := by
  induction indices generalizing ret s written with
  | nil => exact ⟨[], counted, (List.append_nil _).symm⟩
  | cons index indices ih =>
    rw [noteScripts]
    apply silent_step rfl counted (beside_of_group rfl)
    intro id t counted _
    apply Prog.Leads.ite (fun _ => ih ret counted)
    intro _
    apply silent_step rfl counted (beside_of_group rfl)
    intro tested t counted _
    apply silent_step rfl counted (beside_of_group rfl)
    intro count t counted _
    apply Prog.Leads.bind (noteScript_writes index tested count counted)
    rintro ret ⟨u, _⟩ ⟨report, counted, rfl⟩
    apply (ih ret counted).mono
    rintro - v ⟨scripts, wrote⟩
    exact ⟨report ++ scripts, by rwa [← List.append_assoc]⟩

theorem silent_writes {α : Type} {p : Cmd α} (silent : p.Only fun o : Op => noted o = [] ∧ o.Beside)
    {written : Text} (counted : s.Counted counts) :
    Writes host self line p (fun _ => Wrote counts written) (s, written) := by
  induction p generalizing s with
  | pure a => exact ⟨counted, rfl⟩
  | op o k ih =>
    exact silent_step silent.1.1 counted silent.1.2 fun r t counted _ => ih r (silent.2 r) counted

theorem quitNote_writes (dated : ∀ i, OneLine (host.getSysTime i)) (counted : s.Counted counts) :
    Writes host self line quitNote (fun _ u => Notes counts u.2) (s, []) := by
  have calls (j : Nat) (s : Process) (written : Text) (counted : s.Counted counts) :
      Writes host self line (noteCalls j) _ (s, written) := noteCalls_writes j counted
  unfold quitNote
  generalize noteCalls = noteType at calls ⊢
  generalize List.range 10 = slots
  apply silent_step rfl counted (beside_of_group rfl)
  intro opened s counted _
  apply Prog.Leads.ite _ fun _ => fault_writes
  intro _
  apply silent_step rfl counted (beside_of_group rfl)
  intro date s counted hdate
  have day : OneLine date := by
    obtain ⟨w, hread, -⟩ := operate_still rfl hdate
    simp only [interp, sharedStep, Except.ok.injEq, Prod.mk.injEq] at hread
    exact hread.1 ▸ dated _
  apply noted_step (o := .fwriteNote date) counted (beside_of_group rfl)
  intro _ s counted _
  apply Prog.Leads.bind (calls 0 _ _ counted)
  rintro _ ⟨s, _⟩ ⟨counted, rfl⟩
  apply Prog.Leads.bind (calls 1 _ _ counted)
  rintro ret ⟨s, _⟩ ⟨counted, rfl⟩
  apply Prog.Leads.bind (noteScripts_writes slots ret counted)
  rintro ret ⟨s, _⟩ ⟨scripts, counted, rfl⟩
  have rest : (quitEnd ret).Only fun o : Op => noted o = [] ∧ o.Beside := by
    apply Prog.Only.bind_op ⟨rfl, beside_of_group rfl⟩
    intro _
    exact .ite (fun _ => ⟨⟨rfl, beside_of_group rfl⟩, fun _ => trivial⟩)
      fun _ => ⟨⟨rfl, beside_of_group rfl⟩, fun _ => trivial⟩
  apply (silent_writes rest counted).mono
  rintro - ⟨u, _⟩ ⟨-, rfl⟩
  exact ⟨date, scripts, day, by simp [noted, List.flatMap_append]⟩

theorem quit_writes (cmdNum : Nat) (dated : ∀ i, OneLine (host.getSysTime i))
    (counted : s.Counted counts) :
    Writes host self line (quit cmdNum) (fun _ u => Notes counts u.2) (s, []) := by
  have ends (id : Tid) (text : String) : (if id ≠ 0 then do pthreadKill id; pthreadJoin id; say text
      else pure () : Cmd Unit).Only fun o : Op => noted o = [] ∧ o.Beside := by
    split
    · apply Prog.Only.bind_op ⟨rfl, beside_of_group rfl⟩
      intro _
      apply Prog.Only.bind_op ⟨rfl, beside_of_group rfl⟩
      exact fun _ => ⟨⟨rfl, beside_of_group rfl⟩, fun _ => trivial⟩
    · trivial
  unfold quit
  apply silent_step rfl counted (beside_of_group rfl)
  intro sendId s counted _
  apply silent_step rfl counted (beside_of_group rfl)
  intro recId s counted _
  apply Prog.Leads.bind (silent_writes (ends sendId "test mode stoped!") counted)
  rintro _ ⟨s, _⟩ ⟨counted, rfl⟩
  apply Prog.Leads.bind (silent_writes (ends recId "rec mode stoped!") counted)
  rintro _ ⟨s, _⟩ ⟨counted, rfl⟩
  exact quitNote_writes dated counted

variable {name : Text} {args : List Text}

/-- A line of `quit` that returns has written its note. -/
theorem quit_notes (dated : ∀ i, OneLine (host.getSysTime i))
    (tokens : lineTokens line = some (name :: args))
    (named : commandFunc name = some .quit) (counted : s.Counted counts) :
    Writes host self line (cmdProc line) (fun _ u => Notes counts u.2) (s, []) := by
  unfold cmdProc
  apply silent_step rfl counted (beside_of_group rfl)
  intro _ t counted hset
  obtain ⟨argv, p, tokens', loaded, rfl⟩ := operate_setParams hset
  obtain rfl : name :: args = argv := Option.some.inj (tokens.symm.trans tokens')
  apply silent_step rfl counted (beside_of_group rfl)
  intro first t counted hread
  obtain ⟨own, rfl⟩ := operate_param hread
  obtain rfl : name = first := Except.ok.inj ((loaded.own 0 (by simp)).symm.trans own)
  unfold dispatch
  unfold commandFunc at named
  cases code : getCmdCode name with
  | none => simp [code] at named
  | some cmdNum =>
    have func : (cmdEntry cmdNum).func = .quit := by simpa [code] using named
    dsimp only
    rw [func]
    exact quit_writes cmdNum dated counted

/-- A `quit` that returns has written, for each client and each type, how many
calls the steps so far have reported, and the reader of the note finds it. -/
theorem noted_counts (host : Host) (dated : ∀ i, OneLine (host.getSysTime i)) (opened : Int → Bool)
    (run : List ProcessEvent) (s t : Process)
    (reached : runAll (step host) run (fresh opened) = .ok s)
    (self : Option Tid) (line name : Text) (args : List Text)
    (tokens : lineTokens line = some (name :: args)) (named : commandFunc name = some .quit)
    (done : (cmdProc line).run (operate host self line) s = .ok ((), t)) :
    ∃ note, (cmdProc line).run (observing (operate host self line) noted) (s, []) =
      .ok ((), t, note) ∧
      ∀ type n, type < 2 →
        noteCount note type n =
          min ((actions host opened run).count (.call type n) : Int) intMax := by
  have shows := ((directory_simulates host).run (fresh_displays host.inet opened) reached).1
  let calls (type : Nat) (n : Client) : Nat :=
    min ((actions host opened run).count (.call type n)) intMax.toNat
  have counted : s.Counted fun type n => calls type n := by
    funext type n
    have count := Directory.calls_after (actions host opened run) type n .empty
    rw [shows.calls type n, ← actions, count]
    simp only [calls, Directory.empty, intMax]
    omega
  obtain ⟨note, wrote⟩ : ∃ note,
      (cmdProc line).run (observing (operate host self line) noted) (s, []) = .ok ((), t, note) :=
    run_observing_ok done []
  refine ⟨note, wrote, fun type n known => ?_⟩
  have notes : Notes (fun type n => calls type n) note := by
    have writes : Writes host self line (cmdProc line) _ (s, []) :=
      quit_notes dated tokens named counted
    unfold Writes Prog.Leads at writes
    rwa [wrote] at writes
  have small : (calls type n : Int) ≤ intMax := by
    simp only [calls, intMax]
    omega
  rw [notes.count known n small]
  simp only [calls, intMax]
  omega

/-- The same phones, at a certain time. -/
def datedHost : Host := { phoneHost with getSysTime := fun _ => "Thu Jan  1 00:00:00 1970\n".toList }

def quitLine : Text := "q".toList

theorem noted_counts_suspended :
    ∃ s t note, runAll (step datedHost) suspendedRun (fresh fun d => d ≤ 2) = .ok s ∧
    (cmdProc quitLine).run (observing (operate datedHost none quitLine) noted) (s, []) =
      .ok ((), t, note) ∧
    noteCount note 0 1 = 1 ∧ noteCount note 1 1 = 0 := by
  have acts : actions datedHost (fun d => d ≤ 2) suspendedRun =
      [.add 1 "192.168.10.1".toList, .add 2 "192.168.10.2".toList, .call 0 1, .del 1] := by
    decide +kernel
  have checked : (runAll (step datedHost) suspendedRun (fresh fun d => d ≤ 2)).toOption.any (fun s =>
      ((cmdProc quitLine).run (operate datedHost none quitLine) s).toOption.isSome) = true := by
    decide +kernel
  have dated : OneLine "Thu Jan  1 00:00:00 1970\n".toList :=
    ⟨"Thu Jan  1 00:00:00 1970".toList, by decide, rfl⟩
  have tokens : lineTokens quitLine = some ["q".toList] := by decide +kernel
  cases reached : runAll (step datedHost) suspendedRun (fresh fun d => d ≤ 2) with
  | error f => simp [reached, Except.toOption] at checked
  | ok s =>
    simp only [reached, Except.toOption, Option.any_some] at checked
    cases done : (cmdProc quitLine).run (operate datedHost none quitLine) s with
    | error f => simp [done] at checked
    | ok end' =>
      obtain ⟨⟨⟩, t⟩ := end'
      obtain ⟨note, wrote, counts⟩ :=
        noted_counts datedHost (fun _ => dated) (fun d => d ≤ 2) suspendedRun s t reached
        none _ _ _ tokens (by decide) done
      refine ⟨s, t, note, rfl, wrote, ?_, ?_⟩
      · rw [counts 0 1 (by decide), acts]
        decide
      · rw [counts 1 1 (by decide), acts]
        decide

end Process

end AutoTest
