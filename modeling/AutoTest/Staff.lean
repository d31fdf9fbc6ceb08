import AutoTest.Handles

/-!
# The threads of a roster

* `Staff`: a thread can be joined, and follows the function it was made for. A
  script thread clears its handle right before its end.
* `operate_beside`, `operate_moves`: one operation of a line either touches no
  handle and no thread, or is what `Act` says of it.
-/

namespace AutoTest

open CString Strtok Program Cmd HandleTable

/-- What is left of a script thread. -/
def Worker.AtWork (w : Worker) : Prop :=
  w.rest = scriptCmdProcess ∨ (w.rest = (param 1 >>= fun t => scriptBody (atoi t))) ∨
    ∃ cleared, w.rest.Closes w.slot cleared

/-- Not a write to the handles of the scripts. -/
def Op.KeepsHandles : Op → Prop
  | .setScriptThreadID _ _ => False
  | _ => True

def lastPoint : Top ⊕ Int → Cmd Unit
  | .inl top => top.program
  | .inr slot => setScriptThreadID slot 0 >>= fun _ => pthreadExit

/-- The handle of the slot is cleared once, right before the end, as long as
the lines that are read have a count where they need one. -/
abbrev Cmd.ClearsLast (p : Cmd Unit) : Prop := p.Upto (fun _ _ => True) Op.KeepsHandles lastPoint

/-- A thread that has been sent a signal need not do so. -/
def Activity.Orderly (killed : Bool) : Activity → Prop
  | .send _ => True
  | .receive (.process rest) => rest.Only Op.Aside
  | .receive _ => True
  | .script w => w.AtWork ∧ (killed = true ∨ w.rest.ClearsLast)

def Call.Orderly : Call → Prop
  | .entered _ => True
  | .handler _ _ _ rest => rest.Only Op.Aside

/-- The operation on the address that `text` gives for the one it has. -/
def Op.readdressed (text : Text → Text) : Op → Op
  | .networkConfig n ipAddr => .networkConfig n (text ipAddr)
  | .changeClientAddr n ipAddr => .changeClientAddr n (text ipAddr)
  | .setClientIpAddr n ipAddr => .setClientIpAddr n (text ipAddr)
  | o => o

theorem Op.readdressed_tokenised (o : Op) (text : Text → Text) (last : Option Text) :
    (o.readdressed text).tokenised last = o.tokenised last := by
  cases o <;> rfl

section ClearsLast

theorem Op.keeps_of_walk {o : Op} (h : o.group ∈ .tokens :: walkGroups) : o.KeepsHandles := by
  cases o with
  | setScriptThreadID => simp [Op.group, walkGroups] at h
  | _ => trivial

theorem top_clearsLast (top : Top) : top.program.ClearsLast := Prog.Upto.point (.inl top : Top ⊕ Int)

theorem clear_clearsLast (slot : Int) :
    (setScriptThreadID slot 0 >>= fun _ => pthreadExit).ClearsLast :=
  Prog.Upto.point (.inr slot : Top ⊕ Int)

theorem scriptCmdProcess_clearsLast : scriptCmdProcess.ClearsLast :=
  scriptCmdProcess_upto (fun _ => Op.keeps_of_walk) top_clearsLast clear_clearsLast

theorem Activity.Orderly.kill {a : Activity} {killed : Bool} (orderly : a.Orderly killed) :
    a.Orderly true := by
  cases a with
  | script w => exact ⟨orderly.1, .inl rfl⟩
  | send stage => trivial
  | receive stage => cases stage <;> exact orderly

end ClearsLast

namespace Roster

/-- What holds of every thread and every other handler. -/
structure Staff (s : Roster) : Prop where
  alive : ∀ id a, s.activity id = some a → s.world.shared.joinable id = true
  ended : ∀ id, s.activity id = none → s.killed id = false
  orderly : ∀ id a, s.activity id = some a → a.Orderly (s.killed id)

/-! ## One operation -/

section Operations

variable {host : Host} {line : Text} {ipAddr : Option Pointer} {f : Func} {s t : Roster}
    {o : Op} {r : o.Res}

theorem perform_ok (h : s.perform host o = .ok (r, t)) :
    ∃ w, interp host (fun _ => .ok) o s.world = .ok (r, w) ∧
      t = { s with world := w, last := o.tokenised s.last } := by
  unfold perform at h
  cases hstep : interp host (fun _ => .ok) o s.world with
  | error f => simp [hstep] at h
  | ok answer =>
    obtain ⟨rfl, rfl⟩ := Prod.mk.inj (Except.ok.inj (hstep ▸ h))
    exact ⟨answer.2, rfl, rfl⟩

theorem sendSignal_world (id : Tid) : (s.sendSignal id).world = s.world := by
  unfold sendSignal
  split <;> rfl

theorem sendSignal_calls (id : Tid) : (s.sendSignal id).calls = s.calls := by
  unfold sendSignal
  split <;> rfl

theorem sendSignal_last (id : Tid) : (s.sendSignal id).last = s.last := by
  unfold sendSignal
  split <;> rfl

/-- What an operation does: to the world, to a signal, or to the threads. -/
theorem operate_cases (h : operate host line ipAddr o s = .ok (r, t)) :
    (∃ r' w, interp host (fun _ => .ok) (o.readdressed (s.address ipAddr)) s.world = .ok (r', w) ∧
      t = { s with world := w, last := o.tokenised s.last }) ∨
    t = { s with catches := true } ∨ (∃ id, t = s.sendSignal id) ∨
    ∃ joinable calls, t = s.setShared { s.world.shared with joinable := joinable, calls := calls } ∨
      ∃ id routine,
        t = (s.setShared { s.world.shared with joinable := joinable, calls := calls }).setActivity id
          (.created line routine) := by
  have performed (o' : Op) {r' : o'.Res} (same : o' = o.readdressed (s.address ipAddr))
      (tokens : o'.tokenised s.last = o.tokenised s.last) (h : s.perform host o' = .ok (r', t)) :
      ∃ r' w, interp host (fun _ => .ok) (o.readdressed (s.address ipAddr)) s.world = .ok (r', w) ∧
        t = { s with world := w, last := o.tokenised s.last } := by
    subst same
    obtain ⟨w, hstep, rfl⟩ := perform_ok h
    exact ⟨r', w, hstep, by rw [tokens]⟩
  cases o with
  | signal =>
    cases h
    exact .inr (.inl rfl)
  | pthreadKill id =>
    simp only [operate] at h
    split at h
    · cases h
      exact .inr (.inr (.inl ⟨id, rfl⟩))
    · cases h
  | pthreadCreate routine =>
    simp only [operate] at h
    rcases s.world.shared.pthreadCreate_cases host with refused | ⟨id, -, -, made⟩
    · rw [refused] at h
      cases h
      exact .inr (.inr (.inr ⟨_, _, .inl rfl⟩))
    · rw [made] at h
      cases h
      exact .inr (.inr (.inr ⟨_, _, .inr ⟨id, routine, rfl⟩⟩))
  | pthreadJoin id =>
    simp only [operate] at h
    split at h
    · rename_i shared hjoin
      obtain ⟨-, rfl⟩ := Shared.pthreadJoin_ok hjoin
      split at h
      · cases h
        exact .inr (.inr (.inr ⟨_, _, .inl rfl⟩))
      · cases h
    · cases h
  | networkConfig n text => exact .inl (performed (.networkConfig n _) rfl rfl h)
  | changeClientAddr n text => exact .inl (performed (.changeClientAddr n _) rfl rfl h)
  | setClientIpAddr n text => exact .inl (performed (.setClientIpAddr n _) rfl rfl h)
  | _ => exact .inl (performed _ rfl rfl h)

theorem aside_writes (aside : o.Aside) {p : Part} (other : p ∉ [.queue, .scriptNames, .calls]) :
    p ∉ o.writes := by
  cases o with
  | setSendThreadID | setRecThreadID | setScriptThreadID | pthreadKill | pthreadJoin =>
    exact absurd (by simp [Op.group]) aside
  | pthreadCreate routine => cases routine <;> exact absurd (by simp [Op.group]) aside
  | msgsnd | setScriptName | gScriptParamInit | setCountOfSuccessCall =>
    simp only [List.mem_cons, List.not_mem_nil, or_false, not_or] at other
    simp [Op.writes, other]
  | _ => simp [Op.writes]

theorem interp_handles (aside : o.Aside) {w v : World}
    (h : interp host (fun _ => .ok) o w = .ok (r, v)) :
    recorded v.shared = recorded w.shared ∧ v.shared.joinable = w.shared.joinable := by
  have same (p : Part) (other : p ∉ [.queue, .scriptNames, .calls]) : p.Same w.shared v.shared :=
    interp_frame (aside_writes aside other) h
  constructor
  · funext handle
    cases handle with
    | send => exact same .sendHandle (by decide)
    | receive => exact same .receiveHandle (by decide)
    | script slot => exact congrFun (same .scriptHandles (by decide)) slot
  · exact same .joinable (by decide)

/-- What changes neither handles nor threads. -/
def Beside (s t : Roster) : Prop :=
  t.activity = s.activity ∧ t.killed = s.killed ∧ t.calls = s.calls ∧
    recorded t.world.shared = recorded s.world.shared ∧
      t.world.shared.joinable = s.world.shared.joinable

theorem Beside.handles (beside : Beside s t) : t.handles = s.handles := by
  obtain ⟨activity, killed, -, recorded, joinable⟩ := beside
  simp only [Roster.handles, activity, killed, recorded, joinable]

theorem Beside.staff (beside : Beside s t) (staff : s.Staff) : t.Staff := by
  obtain ⟨activity, killed, -, -, joinable⟩ := beside
  constructor
  · rw [activity, joinable]
    exact staff.alive
  · rw [activity, killed]
    exact staff.ended
  · rw [activity, killed]
    exact staff.orderly

theorem perform_beside (aside : o.Aside) (h : s.perform host o = .ok (r, t)) : Beside s t := by
  obtain ⟨w, hstep, rfl⟩ := perform_ok h
  obtain ⟨recorded, joinable⟩ := interp_handles aside hstep
  exact ⟨rfl, rfl, rfl, recorded, joinable⟩

theorem operate_beside (aside : o.Aside) (h : operate host line ipAddr o s = .ok (r, t)) :
    Beside s t := by
  cases o with
  | pthreadKill | pthreadJoin => exact absurd (by simp [Op.group]) aside
  | pthreadCreate routine => cases routine <;> exact absurd (by simp [Op.group]) aside
  | signal =>
    cases h
    exact ⟨rfl, rfl, rfl, rfl, rfl⟩
  | networkConfig n t =>
    exact perform_beside (o := .networkConfig n _) (by simp [Op.Aside, Op.group]) h
  | changeClientAddr n t =>
    exact perform_beside (o := .changeClientAddr n _) (by simp [Op.Aside, Op.group]) h
  | setClientIpAddr n t =>
    exact perform_beside (o := .setClientIpAddr n _) (by simp [Op.Aside, Op.group]) h
  | _ => exact @perform_beside host _ _ _ _ aside h

/-- The tokens of the last line are in the array. -/
def Tokens (s : Roster) : Prop := s.world.params.Holds s.last

theorem operate_tokens (tokens : s.Tokens) (h : operate host line ipAddr o s = .ok (r, t)) :
    t.Tokens := by
  rcases operate_cases h with ⟨r', w, hstep, rfl⟩ | rfl | ⟨id, rfl⟩ | ⟨_, _, rfl | ⟨id, routine, rfl⟩⟩
  · have holds : w.params.Holds _ := interp_holds tokens hstep
    rwa [Op.readdressed_tokenised] at holds
  · exact tokens
  · unfold Tokens
    rwa [sendSignal_world, sendSignal_last]
  · exact tokens
  · exact tokens

theorem operate_calls (h : operate host line ipAddr o s = .ok (r, t)) : t.calls = s.calls := by
  rcases operate_cases h with ⟨r', w, -, rfl⟩ | rfl | ⟨id, rfl⟩ | ⟨_, _, rfl | ⟨id, routine, rfl⟩⟩
  · rfl
  · rfl
  · exact sendSignal_calls id
  · rfl
  · rfl

theorem operate_param {i : Nat} {text : Text}
    (h : operate host line ipAddr (.param i) s = .ok (text, t)) :
    s.world.params.param i = .ok text := by
  obtain ⟨w, hstep, -⟩ := perform_ok (o := .param i) h
  exact (reading_ok hstep).1

theorem operate_scriptCmd {slot : Int} {index : Nat} {text : Text}
    (h : operate host line ipAddr (.scriptCmd slot index) s = .ok (text, t)) :
    s.world.shared.scripts.scriptCmd slot index = .ok text := by
  obtain ⟨w, hstep, -⟩ := perform_ok (o := .scriptCmd slot index) h
  simp only [interp] at hstep
  split at hstep
  · rename_i hshared
    cases hstep
    exact (reading_ok hshared).1
  · cases hstep

theorem advanceScript_eq {id : Tid} {w : Worker} {o : Op} {k : o.Res → Cmd Unit}
    (hrest : w.rest = .op o k) (stays : o ≠ .pthreadExit) (noCall : ∀ line, o ≠ .call line) :
    s.advanceScript host id w = match operate host [] none o s with
      | .ok (r, u) => .ok (u.setActivity id (.script (w.moved o (k r))))
      | .error f => .error f := by
  cases o with
  | pthreadExit => exact absurd rfl stays
  | call line => exact absurd rfl (noCall line)
  | _ =>
    simp only [advanceScript, hrest]
    rfl

theorem advanceScript_op {id : Tid} {w : Worker} {o : Op} {k : o.Res → Cmd Unit}
    (hrest : w.rest = .op o k) (stays : o ≠ .pthreadExit) (noCall : ∀ line, o ≠ .call line)
    (h : s.advanceScript host id w = .ok t) :
    ∃ r u, operate host [] none o s = .ok (r, u) ∧
      t = u.setActivity id (.script (w.moved o (k r))) := by
  rw [advanceScript_eq hrest stays noCall] at h
  split at h
  · rename_i r u hstep
    exact ⟨r, u, hstep, (Except.ok.inj h).symm⟩
  · cases h

theorem advanceCall_eq {self : Option Tid} {name : Text} {o : Op} {k : o.Res → Cmd Unit}
    {callers : List Call} (noCall : ∀ line, o ≠ .call line) :
    s.advanceCall host self callers (.handler line name ipAddr (.op o k)) =
      match operate host line ipAddr o s with
      | .ok (r, u) =>
        .ok (u.setCalls self (.handler line name (Pointer.after s.world.params ipAddr o r)
          (k r) :: callers))
      | .error f => .error f := by
  cases o with
  | call line => exact absurd rfl (noCall line)
  | _ =>
    simp only [advanceCall]
    rfl

theorem advanceCall_op {self : Option Tid} {name : Text} {o : Op} {k : o.Res → Cmd Unit}
    {callers : List Call} (noCall : ∀ line, o ≠ .call line)
    (h : s.advanceCall host self callers (.handler line name ipAddr (.op o k)) = .ok t) :
    ∃ r u, operate host line ipAddr o s = .ok (r, u) ∧
      t = u.setCalls self
        (.handler line name (Pointer.after s.world.params ipAddr o r) (k r) :: callers) := by
  rw [advanceCall_eq noCall] at h
  split at h
  · rename_i r u hstep
    exact ⟨r, u, hstep, (Except.ok.inj h).symm⟩
  · cases h

/-- So it goes on, and exits once it has cleared its handle. -/
theorem clearsLast_next {k : o.Res → Cmd Unit} (last : Cmd.ClearsLast (.op o k))
    (counted : Cmd.NextLine s.world.shared.scripts LoopCounted (.op o k))
    (h : operate host line ipAddr o s = .ok (r, t)) :
    (k r).ClearsLast ∧ (o.KeepsHandles ∨ k r = pthreadExit) := by
  have walk (o : Op) (listed : o.group ∈ walkGroups) : o.KeepsHandles :=
    Op.keeps_of_walk (.tail _ listed)
  rcases last.next with ⟨keeps, rest⟩ | ⟨top | slot, shape⟩
  · exact ⟨rest r trivial, .inl keeps⟩
  · by_cases reads : top.Reads
    · obtain ⟨k', own, next⟩ := top.reads_line reads walk top_clearsLast
      cases own.symm.trans shape
      refine ⟨next r (fun _ => loopParameter_given r trivial trivial) ?_, .inl trivial⟩
      intro uncounted
      exact absurd (counted top own.symm reads r (operate_scriptCmd h)) uncounted
    · obtain ⟨keeps, rest⟩ := Top.ends reads shape walk (clear_clearsLast top.slot)
      exact ⟨rest r, .inl keeps⟩
  · cases shape
    exact ⟨.op trivial fun _ _ => .pure (), .inr rfl⟩

/-- The answer of a read. -/
theorem operate_answer (aside : o.Aside)
    (own : o = .param 1 → f.numbered = true → ∀ text, s.world.params.param 1 = .ok text →
      atoi text = (Worker.created line).slot)
    (h : operate host line ipAddr o s = .ok (r, t)) : Act f line o s.handles r t.handles := by
  have same : t.handles = s.handles := (operate_beside aside h).handles
  cases o with
  | setSendThreadID | setRecThreadID | setScriptThreadID | pthreadKill | pthreadJoin =>
    exact absurd (by simp [Op.group]) aside
  | pthreadCreate routine => cases routine <;> exact absurd (by simp [Op.group]) aside
  | param i =>
    refine ⟨?_, same⟩
    rintro rfl numbered
    exact own rfl numbered r (operate_param h)
  | getSendThreadID =>
    cases h
    exact ⟨rfl, rfl⟩
  | getRecThreadID =>
    cases h
    exact ⟨rfl, rfl⟩
  | getScriptThreadID n =>
    refine ⟨?_, same⟩
    obtain ⟨w, hread, -⟩ := perform_ok (o := .getScriptThreadID n) h
    simp only [interp] at hread
    split at hread
    · rename_i hshared
      cases hread
      obtain ⟨hid, -⟩ := reading_ok hshared
      obtain ⟨slot, hslot, rfl⟩ := Scripts.slotwise_ok hid
      exact ⟨slot, hslot, rfl⟩
    · cases hread
  | _ => exact same

theorem handles_setActivity (id : Tid) (a : Activity) : (s.setActivity id a).handles =
    { s.handles with role := Function.update s.handles.role id a.role } := by
  have role : (s.setActivity id a).handles.role = Function.update s.handles.role id a.role := by
    funext i
    by_cases same : i = id
    · subst same
      simp [handles, setActivity]
    · simp [handles, setActivity, same]
  rw [← role]
  rfl

theorem handles_endThread (id : Tid) : (s.endThread id).handles = s.handles.gone id := by
  have role : (s.endThread id).handles.role = (s.handles.gone id).role := by
    funext i
    by_cases same : i = id
    · subst same
      simp [handles, endThread, Table.gone]
    · simp [handles, endThread, Table.gone, same]
  exact congrArg (fun role => { s.handles.gone id with role := role }) role

theorem Staff.setActivity (staff : s.Staff) {id : Tid} {a : Activity}
    (joinable : s.world.shared.joinable id = true) (orderly : a.Orderly (s.killed id)) :
    (s.setActivity id a).Staff := by
  obtain ⟨alive, ended, old⟩ := staff
  constructor
  · intro i b
    by_cases same : i = id
    · subst same
      intro _
      exact joinable
    · simpa [Roster.setActivity, same] using alive i b
  · intro i
    by_cases same : i = id
    · simp [Roster.setActivity, same]
    · simpa [Roster.setActivity, same] using ended i
  · intro i b
    by_cases same : i = id
    · subst same
      simp only [Roster.setActivity, Function.update_self, Option.some.injEq]
      rintro rfl
      exact orderly
    · simpa [Roster.setActivity, same] using old i b

theorem Staff.endThread (staff : s.Staff) (id : Tid) : (s.endThread id).Staff := by
  obtain ⟨alive, ended, orderly⟩ := staff
  constructor
  · intro i b
    by_cases same : i = id
    · simp [Roster.endThread, same]
    · simpa [Roster.endThread, same] using alive i b
  · intro i
    by_cases same : i = id
    · simp [Roster.endThread, same]
    · simpa [Roster.endThread, same] using ended i
  · intro i b
    by_cases same : i = id
    · simp [Roster.endThread, same]
    · simpa [Roster.endThread, same] using orderly i b

theorem created_orderly (line : Text) (routine : Routine) (killed : Bool) :
    (Activity.created line routine).Orderly killed := by
  cases routine with
  | scriptCmdProcess => exact ⟨.inl rfl, .inr scriptCmdProcess_clearsLast⟩
  | _ => trivial

theorem recorded_script (shared : Shared) (slot : Slot) (id : Tid) :
    recorded { shared with scripts := { shared.scripts with
      thrScriptId := Function.update shared.scripts.thrScriptId slot id } } =
        Function.update (recorded shared) (.script slot) id := by
  funext handle
  cases handle with
  | script other =>
    by_cases same : other = slot
    · subst same
      simp [recorded]
    · have apart : Handle.script other ≠ .script slot := by simpa using same
      rw [Function.update_of_ne apart]
      simp [recorded, same]
  | _ => rfl

theorem recorded_send (shared : Shared) (id : Tid) :
    recorded { shared with thrCmdSendId := id } = Function.update (recorded shared) .send id := by
  funext handle
  cases handle <;> rfl

theorem recorded_receive (shared : Shared) (id : Tid) :
    recorded { shared with thrRetReceiveId := id } = Function.update (recorded shared)
      .receive id := by
  funext handle
  cases handle <;> rfl

theorem Staff.setShared (staff : s.Staff) {shared : Shared}
    (joinable : ∀ id a, s.activity id = some a → shared.joinable id = s.world.shared.joinable id) :
    (s.setShared shared).Staff := by
  refine ⟨?_, staff.ended, staff.orderly⟩
  intro id a busy
  exact (joinable id a busy).trans (staff.alive id a busy)

/-- What an operation of a handler does with handles and threads. -/
structure Moves (f : Func) (line : Text) (o : Op) (r : o.Res) (s t : Roster) : Prop where
  act : Act f line o s.handles r t.handles
  staff : t.Staff
  calls : t.calls = s.calls
  killed : ∀ id, o ≠ .pthreadKill id → s.killed id = false → t.killed id = false

theorem create_moves {routine : Routine} {r : Option Tid} (staff : s.Staff)
    (h : operate host line ipAddr (.pthreadCreate routine) s = .ok (r, t)) :
    Moves f line (.pthreadCreate routine) r s t := by
  simp only [operate] at h
  rcases s.world.shared.pthreadCreate_cases host with refused | ⟨id, nonzero, fresh, made⟩
  · simp only [refused, Except.ok.injEq, Prod.mk.injEq] at h
    obtain ⟨rfl, rfl⟩ := h
    exact ⟨.inl ⟨rfl, rfl⟩, staff.setShared fun _ _ _ => rfl, rfl, fun _ _ h => h⟩
  · simp only [made, Except.ok.injEq, Prod.mk.injEq] at h
    obtain ⟨rfl, rfl⟩ := h
    have free : s.activity id = none := by
      cases busy : s.activity id with
      | none => rfl
      | some a => cases fresh.symm.trans (staff.alive id a busy)
    refine ⟨.inr ⟨id, nonzero, by simp [handles, free], rfl, ?_⟩, ?_, rfl, fun _ _ h => h⟩
    · intro handle role
      rw [handles_setActivity, role]
      rfl
    · apply Staff.setActivity _ (Function.update_self ..) (created_orderly line routine _)
      apply staff.setShared
      intro i a busy
      apply Function.update_of_ne
      rintro rfl
      cases free.symm.trans busy

/-- A signal is on its way to a thread that has not ended. -/
theorem kill_moves {id : Tid} {r : Unit} (staff : s.Staff)
    (h : operate host line ipAddr (.pthreadKill id) s = .ok (r, t)) :
    Moves f line (.pthreadKill id) r s t := by
  simp only [operate] at h
  split at h
  · cases h
    unfold sendSignal
    split
    · rename_i busy
      refine ⟨.inr rfl, ⟨staff.alive, ?_, ?_⟩, rfl, ?_⟩
      · intro i (done : s.activity i = none)
        have other : i ≠ id := by
          rintro rfl
          simp [done] at busy
        exact (Function.update_of_ne other _ _).trans (staff.ended i done)
      · intro i a busy
        by_cases same : i = id
        · subst same
          simpa using (staff.orderly i a busy).kill
        · simpa [same] using staff.orderly i a busy
      · intro i other unkilled
        have apart : i ≠ id := by
          rintro rfl
          exact other rfl
        exact (Function.update_of_ne apart _ _).trans unkilled
    · rename_i idle
      have done : s.activity id = none := by simpa using idle
      exact ⟨.inl ⟨by simp [handles, done], rfl⟩, staff, rfl, fun _ _ h => h⟩
  · cases h

/-- The thread has ended by then. -/
theorem join_moves {id : Tid} {r : Unit} (staff : s.Staff)
    (h : operate host line ipAddr (.pthreadJoin id) s = .ok (r, t)) :
    Moves f line (.pthreadJoin id) r s t := by
  simp only [operate] at h
  split at h
  · rename_i shared hjoin
    obtain ⟨-, rfl⟩ := Shared.pthreadJoin_ok hjoin
    split at h
    · rename_i idle
      cases h
      have done : s.activity id = none := by simpa using idle
      refine ⟨⟨by simp [handles, done], staff.ended id done, rfl⟩, ?_, rfl, fun _ _ h => h⟩
      apply staff.setShared
      intro i a busy
      apply Function.update_of_ne
      rintro rfl
      cases done.symm.trans busy
    · cases h
  · cases h

theorem store_moves {n : Int} {id : Tid} {r : Unit} (staff : s.Staff)
    (h : operate host line ipAddr (.setScriptThreadID n id) s = .ok (r, t)) :
    Moves f line (.setScriptThreadID n id) r s t := by
  obtain ⟨w, hstep, rfl⟩ := perform_ok (o := .setScriptThreadID n id) h
  simp only [interp] at hstep
  split at hstep
  · rename_i hshared
    cases hstep
    obtain ⟨scripts, hset, rfl⟩ := writing_ok hshared
    refine ⟨?_, staff.setShared fun _ _ _ => rfl, rfl, fun _ _ h => h⟩
    rcases Scripts.setScriptThreadID_cases hset with ⟨slot, number, rfl⟩ | ⟨outside, rfl⟩
    · refine .inl ⟨slot, number, ?_⟩
      exact congrArg (fun recorded => { s.handles with recorded := recorded })
        (recorded_script _ slot id)
    · exact .inr ⟨outside, rfl⟩
  · cases hstep

theorem operate_moves (staff : s.Staff) (moves : ¬ o.Aside)
    (h : operate host line ipAddr o s = .ok (r, t)) : Moves f line o r s t := by
  cases o with
  | fault => cases h
  | setSendThreadID id =>
    cases h
    refine ⟨?_, staff.setShared fun _ _ _ => rfl, rfl, fun _ _ h => h⟩
    exact congrArg (fun recorded => { s.handles with recorded := recorded }) (recorded_send _ id)
  | setRecThreadID id =>
    cases h
    refine ⟨?_, staff.setShared fun _ _ _ => rfl, rfl, fun _ _ h => h⟩
    exact congrArg (fun recorded => { s.handles with recorded := recorded }) (recorded_receive _ id)
  | setScriptThreadID n id => exact store_moves staff h
  | pthreadCreate routine => exact create_moves staff h
  | pthreadKill id => exact kill_moves staff h
  | pthreadJoin id => exact join_moves staff h
  | _ => exact absurd (by simp [Op.Aside, Op.group]) moves

end Operations

/-! ## Lines of the main thread -/

section MainOnly

variable {host : Host} {s t : Roster} {o : Op} {r : o.Res} {line : Text} {ipAddr : Option Pointer}

/-- No other thread is in a line. -/
def MainOnly (s : Roster) : Prop := ∀ id, s.calls (some id) = []

/-- A script thread does not pass a line on. -/
def Alone (s : Roster) : RosterEvent → Prop
  | .step (some id) => ∀ w line, s.activity id = some (.script w) → w.rest.next ≠ some (.call line)
  | _ => True

theorem MainOnly.of_calls (main : s.MainOnly) (calls : t.calls = s.calls) : t.MainOnly := by
  intro id
  rw [calls]
  exact main id

theorem enter_main (main : s.MainOnly) (h : s.enter none line = .ok t) : t.MainOnly := by
  unfold enter at h
  split at h
  · cases h
    exact main
  · cases h

theorem endThread_main (main : s.MainOnly) (id : Tid) : (s.endThread id).MainOnly := by
  intro i
  by_cases same : i = id
  · simp [endThread, same]
  · simp [endThread, same, main i]

theorem advanceCall_main {callers : List Call} {call : Call} (main : s.MainOnly)
    (h : s.advanceCall host none callers call = .ok t) : t.MainOnly := by
  cases call with
  | entered line =>
    simp only [advanceCall] at h
    split at h
    · cases h
      exact main
    · cases h
  | handler line name ipAddr rest =>
    cases rest with
    | pure a =>
      cases h
      exact main
    | op o k =>
      by_cases called : ∃ inner, o = .call inner
      · obtain ⟨inner, rfl⟩ := called
        exact enter_main (s := s.setCalls none (.handler line name ipAddr (k ()) :: callers)) main h
      · obtain ⟨r, u, hstep, rfl⟩ := advanceCall_op (fun inner same => called ⟨inner, same⟩) h
        exact main.of_calls (t := u) (operate_calls hstep)

theorem advanceReceive_main {id : Tid} {stage : Receiver} (main : s.MainOnly)
    (h : s.advanceReceive host id stage = .ok t) : t.MainOnly := by
  cases stage with
  | signal =>
    cases h
    exact main
  | serverInit | recvfrom => cases h
  | process rest =>
    cases rest with
    | pure a =>
      cases h
      exact main
    | op o k =>
      simp only [advanceReceive] at h
      split at h
      · rename_i r u hstep
        cases h
        exact main.of_calls (t := u) (operate_calls hstep)
      · cases h

theorem advanceScript_main {id : Tid} {w : Worker} (main : s.MainOnly)
    (alone : ∀ line, w.rest.next ≠ some (.call line)) (h : s.advanceScript host id w = .ok t) :
    t.MainOnly := by
  cases hrest : w.rest with
  | pure a => simp [advanceScript, hrest] at h
  | op o k =>
    by_cases exits : o = .pthreadExit
    · subst exits
      obtain rfl : s.endThread id = t := by simpa [advanceScript, hrest] using h
      exact endThread_main main id
    · have noCall (line : Text) : o ≠ .call line := by
        rintro rfl
        exact alone line (by rw [hrest]; rfl)
      obtain ⟨r, u, hstep, rfl⟩ := advanceScript_op hrest exits noCall h
      exact main.of_calls (t := u) (operate_calls hstep)

theorem step_main {e : RosterEvent} (main : s.MainOnly) (alone : s.Alone e)
    (h : s.step host e = .ok t) : t.MainOnly := by
  cases e with
  | take line =>
    simp only [step] at h
    split at h
    · exact enter_main main h
    · cases h
  | step self =>
    cases self with
    | none =>
      cases stack : s.calls none with
      | nil => simp [step, stack] at h
      | cons c callers =>
        simp only [step, stack] at h
        exact advanceCall_main main h
    | some id =>
      simp only [step, main id] at h
      cases busy : s.activity id with
      | none => simp [busy] at h
      | some a =>
        simp only [busy] at h
        cases a with
        | send stage =>
          simp only [advanceSend] at h
          split at h
          · cases h
            exact main
          · cases h
        | receive stage => exact advanceReceive_main main h
        | script w => exact advanceScript_main main (fun line => alone w line busy) h
  | quit id =>
    simp only [step] at h
    split at h
    · cases h
      exact endThread_main main id
    · cases h
  | serve id port =>
    simp only [step] at h
    split at h
    · cases h
      exact main
    · cases h
  | fail id =>
    simp only [step] at h
    split at h
    · cases h
      exact endThread_main main id
    · cases h
  | log id text =>
    simp only [step] at h
    split at h
    · cases h
      exact main
    · cases h

end MainOnly

end Roster

end AutoTest
