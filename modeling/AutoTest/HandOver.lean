import AutoTest.Process

/-!
# The hand-over of a script slot

`runScript` starts a thread without an argument. The thread fetches its slot
number from the token array and its file name from the slot, whenever it runs.

* `scriptBody_closes`: a thread clears the handle of its slot right before it
  exits.
* `scriptCmdProcess_serves`: a thread that fetches what its line gave works on
  that slot and file only, and clears the handle of the slot before it ends.
* `Process.Inv`: until then the handle of the slot is its own, and until it has
  fetched the name of its file that name is in the slot.
* `script_handed_over`: so it is in every run in which the last line before a
  thread fetches its number names its slot, and no line that wipes the names
  comes before it has fetched its own.
-/

namespace AutoTest

open CString Strtok Program Cmd

/-! ## What a script thread may do -/

/-- An operation of a thread for one slot and file, which has `named` the file
and `cleared` the handle of the slot or not. -/
def Op.Serves (slot : Int) (file : Text) (named cleared : Bool) : Op → Prop
  | .signal => True
  | .print _ => True
  | .fault _ => True
  | .call _ => True
  | .mallocTemp => True
  | .param i => i = 1
  | .getCountOfScriptRun n => n = slot
  | .setCountOfScriptRun n _ => n = slot
  | .getScriptName n => n = slot ∧ named = false
  | .fopen name => name = file
  | .mallocScript n => n = slot
  | .copyScript n _ => n = slot
  | .scriptCmd n _ => n = slot
  | .freeScript n => n = slot
  | .setScriptThreadID n id => n = slot ∧ id = 0 ∧ named = true
  | .pthreadExit => cleared = true
  | _ => False

/-- The answers that hand the slot and the file over. -/
def Op.Hands (slot : Int) (file : Text) : (o : Op) → o.Res → Prop
  | .param _, t => atoi t = slot
  | .getScriptName _, name => name = file
  | .pthreadExit, _ => False
  | _, _ => True

/-- A thread that serves its slot and file, up to a `pthread_exit`. -/
def Cmd.Serves (slot : Int) (file : Text) : Bool → Bool → Cmd Unit → Prop
  | _, _, .pure _ => False
  | named, cleared, .op o k => o.Serves slot file named cleared ∧
      ∀ r, o.Hands slot file r →
        Cmd.Serves slot file (named || o.fetches) (cleared || o.clears slot) (k r)

/-- What can stand anywhere in the thread. -/
def Op.Works (slot : Int) : Op → Prop
  | .print _ => True
  | .fault _ => True
  | .call _ => True
  | .mallocTemp => True
  | .getCountOfScriptRun n => n = slot
  | .setCountOfScriptRun n _ => n = slot
  | .copyScript n _ => n = slot
  | .scriptCmd n _ => n = slot
  | _ => False

section Serves

variable {slot : Int} {file : Text} {named cleared : Bool} {α : Type}

theorem Op.Works.serves {o : Op} (h : o.Works slot) :
    o.Serves slot file named cleared ∧ o.fetches = false ∧ o.clears slot = false := by
  cases o <;> first | exact h.elim | exact ⟨h, rfl, rfl⟩

namespace Cmd.Serves

theorem bind {p : Cmd α} {f : α → Cmd Unit} (hp : p.Only (Op.Works slot))
    (hf : ∀ a, (f a).Serves slot file named cleared) : (p >>= f).Serves slot file named cleared := by
  induction p with
  | pure a => exact hf a
  | op o k ih =>
    have ⟨serves, aside, keeps⟩ :
        o.Serves slot file named cleared ∧ o.fetches = false ∧ o.clears slot = false := hp.1.serves
    refine ⟨serves, ?_⟩
    intro r _
    rw [aside, keeps, Bool.or_false, Bool.or_false]
    exact ih r (hp.2 r)

theorem step {o : Op} {f : o.Res → Cmd Unit} (serves : o.Serves slot file named cleared)
    (keeps : o.clears slot = false)
    (hf : ∀ r, o.Hands slot file r → (f r).Serves slot file (named || o.fetches) cleared) :
    Cmd.Serves slot file named cleared ((Prog.op o .pure : Cmd o.Res) >>= f) := by
  refine ⟨serves, ?_⟩
  intro r hr
  rw [keeps, Bool.or_false]
  exact hf r hr

theorem ite {c : Prop} [Decidable c] {p q : Cmd Unit} (hp : c → p.Serves slot file named cleared)
    (hq : ¬ c → q.Serves slot file named cleared) :
    Cmd.Serves slot file named cleared (if c then p else q) := by
  by_cases h : c
  · simpa only [h, ↓reduceIte] using hp h
  · simpa only [h, ↓reduceIte] using hq h

theorem fault (f : Fault) : (Cmd.fault f).Serves slot file named cleared := ⟨trivial, fun r => r.elim⟩

end Cmd.Serves

theorem fault_works (f : Fault) : (Cmd.fault f : Cmd α).Only (Op.Works slot) :=
  fault_only (fun _ => trivial) f

theorem say_works (t : String) : (say t).Only (Op.Works slot) := ⟨trivial, fun _ => trivial⟩

theorem cpScriptContentToArray_works (text : Text) :
    (cpScriptContentToArray slot text).Only (Op.Works slot) := by
  have report (line : Text) : (reportLine line).Only (Op.Works slot) := by
    refine .ite (fun _ => trivial) fun _ => .ite (fun _ => say_works _) fun _ => trivial
  unfold cpScriptContentToArray
  refine .bind_op trivial fun allocated => .ite (fun _ => ?_) fun _ => trivial
  exact .bind (each_only report) fun _ => ⟨rfl, fun _ => trivial⟩

theorem scanBlock_works (fuel index : Nat) (loopStart : Option Nat) :
    (scanBlock slot fuel index loopStart).Only (Op.Works slot) := by
  induction fuel generalizing index loopStart with
  | zero => exact fault_works _
  | succ fuel ih =>
    exact ⟨rfl, fun _ => ⟨rfl, fun _ => .ite (fun _ => trivial) fun _ => ih _ _⟩⟩

theorem playLines_works (count index : Nat) : (playLines slot count index).Only (Op.Works slot) := by
  induction count generalizing index with
  | zero => trivial
  | succ count ih => exact ⟨rfl, fun _ => ⟨trivial, fun _ => ih _⟩⟩

theorem playBlock_works (loopStart loopEnd loopTime : Nat) :
    (playBlock slot loopStart loopEnd loopTime).Only (Op.Works slot) := by
  induction loopTime with
  | zero => trivial
  | succ loopTime ih =>
    refine .ite (fun _ => trivial) fun _ => .bind (playLines_works _ _) fun _ => ?_
    exact ⟨rfl, fun _ => ⟨rfl, fun _ => ih⟩⟩

theorem loopParameter_works (line : Text) : (loopParameter line).Only (Op.Works slot) := by
  unfold loopParameter
  split
  · exact fault_works _
  · exact .ite (fun _ => trivial) fun _ => fault_works _

/-- An operation of a thread with its slot. The state is whether it has just
cleared the handle, after which alone it may exit. -/
def Op.closes (slot : Int) : Op → Bool → Option Bool
  | .setScriptThreadID n id, _ => if n = slot ∧ id = 0 then some true else none
  | .pthreadExit, true => some false
  | .print _, _ | .fault _, _ | .call _, _ | .mallocTemp, _ | .fopen _, _ => some false
  | .getScriptName n, _ | .getCountOfScriptRun n, _ | .setCountOfScriptRun n _, _ | .mallocScript n, _
  | .copyScript n _, _ | .scriptCmd n _, _ | .freeScript n, _ => if n = slot then some false else none
  | _, _ => none

abbrev Cmd.Closes (slot : Int) (cleared : Bool) (p : Cmd Unit) : Prop :=
  p.Follows (Op.closes slot) false cleared

theorem Op.Works.closes {o : Op} (works : o.Works slot) : o.closes slot cleared = some false := by
  cases o <;> first | exact works.elim | (cases works; cases cleared <;> simp [Op.closes])

theorem Cmd.Closes.bind {p : Cmd α} {f : α → Cmd Unit} (works : p.Only (Op.Works slot))
    (hf : ∀ a, (f a).Closes slot false) : (p >>= f).Closes slot false :=
  Prog.Follows.bind (Prog.Follows.of_only (works.mono fun _ ho => ho.closes)) hf

theorem fault_closes (f : Fault) : (Cmd.fault f).Closes slot false :=
  ⟨false, rfl, fun r => r.elim⟩

theorem endScript_closes : (endScript slot).Closes slot cleared := by
  refine ⟨false, ?_, fun _ => ⟨true, ?_, fun _ => ⟨false, rfl, fun _ => rfl⟩⟩⟩
  · cases cleared <;> simp [Op.closes]
  · simp [Op.closes]

theorem scriptLoop_closes (scriptLineNum fuel index : Nat) (loopStart : Option Nat) :
    (scriptLoop slot scriptLineNum fuel index loopStart).Closes slot false := by
  have read {n : Nat} : (Op.scriptCmd slot n).closes slot false = some false := if_pos rfl
  induction fuel generalizing index loopStart with
  | zero => exact fault_closes _
  | succ fuel ih =>
    unfold scriptLoop
    apply Prog.Follows.ite
    · intro _
      exact endScript_closes
    intro _
    apply Prog.Follows.bind_op read
    intro line
    apply Prog.Follows.ite
    · intro _
      apply Cmd.Closes.bind (loopParameter_works line)
      intro parameter
      apply Prog.Follows.ite
      · intro _
        apply Cmd.Closes.bind (scanBlock_works _ _ _)
        intro block
        obtain ⟨loopStart, endLine⟩ := block
        cases loopStart with
        | none => exact fault_closes _
        | some first =>
          apply Cmd.Closes.bind (playBlock_works _ _ _)
          intro _
          exact ih _ _
      · intro _
        apply Cmd.Closes.bind (say_works _)
        intro _
        apply Prog.Follows.bind_op (if_pos ⟨rfl, rfl⟩)
        intro _
        exact endScript_closes
    · intro _
      apply Prog.Follows.bind_op read
      intro line
      apply Prog.Follows.bind_op rfl
      intro _
      exact ih _ _

/-- The thread from the read of its slot number on. -/
def scriptBody (scriptNum : Int) : Cmd Unit := do
  setCountOfScriptRun scriptNum 0
  let name ← getScriptName scriptNum
  match ← Cmd.fopen name with
  | none =>
    say "\nscript file open failed!\n"
    setScriptThreadID scriptNum 0
    pthreadExit
  | some file =>
    if ← mallocScript scriptNum then
      let scriptLineNum ← cpScriptContentToArray scriptNum file
      if scriptLineNum = failed then
        say "cp error\n"
        endScript scriptNum
      else scriptLoop scriptNum scriptLineNum.toNat (maxScLine + 1) 0 none
    else endScript scriptNum

/-- A thread clears the handle of its slot right before it exits. -/
theorem scriptBody_closes : (scriptBody slot).Closes slot false := by
  unfold scriptBody
  apply Prog.Follows.bind_op (if_pos rfl)
  intro _
  apply Prog.Follows.bind_op (if_pos rfl)
  intro name
  apply Prog.Follows.bind_op rfl
  intro opened
  cases opened with
  | none =>
    apply Cmd.Closes.bind (say_works _)
    intro _
    apply Prog.Follows.bind_op (if_pos ⟨rfl, rfl⟩)
    intro _
    exact ⟨false, rfl, fun _ => rfl⟩
  | some text =>
    apply Prog.Follows.bind_op (if_pos rfl)
    intro allocated
    apply Prog.Follows.ite
    · intro _
      apply Cmd.Closes.bind (cpScriptContentToArray_works text)
      intro scriptLineNum
      apply Prog.Follows.ite
      · intro _
        apply Cmd.Closes.bind (say_works _)
        intro _
        exact endScript_closes
      · intro _
        exact scriptLoop_closes _ _ _ _
    · intro _
      exact endScript_closes

/-- What a thread may do once it has its slot. -/
def Op.AtSlot (slot : Int) : Op → Prop
  | .fopen _ => True
  | .getScriptName n => n = slot
  | .mallocScript n => n = slot
  | .freeScript n => n = slot
  | .setScriptThreadID n _ => n = slot
  | .pthreadExit => True
  | o => o.Works slot

theorem Op.closes_atSlot {o : Op} {next : Bool} (h : o.closes slot cleared = some next) :
    o.AtSlot slot := by
  cases o <;> cases cleared <;> simp_all [closes, AtSlot, Works]

theorem scriptBody_atSlot : (scriptBody slot).Only (Op.AtSlot slot) := by
  apply Prog.Follows.only _ scriptBody_closes
  intro o cleared next accepted
  exact Op.closes_atSlot accepted

theorem scriptCmdProcess_eq : scriptCmdProcess = (do
    Cmd.signal
    let token ← param 1
    scriptBody (atoi token)) := rfl

/-- The thread clears the handle of its slot and exits. -/
theorem exit_serves :
    (Cmd.setScriptThreadID slot 0 >>= fun _ => Cmd.pthreadExit).Serves slot file true cleared := by
  refine ⟨⟨rfl, rfl, rfl⟩, fun _ _ => ⟨?_, fun _ hr => hr.elim⟩⟩
  simp [Op.clears, Op.Serves]

theorem endScript_serves : (endScript slot).Serves slot file true cleared :=
  .step (o := .freeScript slot) rfl rfl fun _ _ => exit_serves

theorem scriptLoop_serves (scriptLineNum fuel index : Nat) (loopStart : Option Nat) :
    (scriptLoop slot scriptLineNum fuel index loopStart).Serves slot file true false := by
  induction fuel generalizing index loopStart with
  | zero => exact .fault _
  | succ fuel ih =>
    unfold scriptLoop
    refine .ite (fun _ => endScript_serves) fun _ => .step rfl rfl fun line _ => ?_
    refine .ite (fun _ => ?_) fun _ => .step rfl rfl fun line _ => .step trivial rfl fun _ _ => ih _ _
    refine .bind (loopParameter_works line) fun parameter => .ite (fun _ => ?_) fun _ => ?_
    · apply Cmd.Serves.bind (scanBlock_works _ _ _)
      intro block
      obtain ⟨loopStart, endLine⟩ := block
      cases loopStart with
      | none => exact .fault _
      | some first => exact .bind (playBlock_works _ _ _) fun _ => ih _ _
    · refine .bind (say_works _) fun _ => ⟨⟨rfl, rfl, rfl⟩, fun _ _ => ?_⟩
      exact endScript_serves

/-- A thread that fetches slot and file as they were given serves them. -/
theorem scriptCmdProcess_serves : scriptCmdProcess.Serves slot file false false := by
  unfold scriptCmdProcess
  refine .step trivial rfl fun _ _ => .step rfl rfl fun token htoken => ?_
  obtain rfl : atoi token = slot := htoken
  refine .step rfl rfl fun _ _ => .step ⟨rfl, rfl⟩ rfl fun name hname => ?_
  obtain rfl : name = file := hname
  refine .step rfl rfl fun opened _ => ?_
  cases opened with
  | none => exact .bind (say_works _) fun _ => exit_serves
  | some text =>
    refine .step rfl rfl fun allocated _ => .ite (fun _ => ?_) fun _ => endScript_serves
    refine .bind (cpScriptContentToArray_works text) fun scriptLineNum =>
      .ite (fun _ => ?_) fun _ => ?_
    · exact .bind (say_works _) fun _ => endScript_serves
    · exact scriptLoop_serves _ _ _ _

end Serves

/-! ## The invariant -/

/-- Only `pthread_exit` is left. -/
def Worker.leaving (w : Worker) : Bool :=
  match w.rest with
  | .op .pthreadExit _ => true
  | _ => false

def Worker.Serves (w : Worker) : Prop := Cmd.Serves w.slot w.file w.named w.cleared w.rest

theorem Worker.Serves.op {w : Worker} (serves : w.Serves) {o : Op} {k : o.Res → Cmd Unit}
    (hrest : w.rest = .op o k) : o.Serves w.slot w.file w.named w.cleared ∧
      ∀ r, o.Hands w.slot w.file r → (w.moved o (k r)).Serves := by
  unfold Worker.Serves at serves
  rwa [hrest] at serves

theorem Worker.Serves.cleared {w : Worker} (serves : w.Serves) (leaving : w.leaving = true) :
    w.cleared = true := by
  unfold Worker.leaving at leaving
  split at leaving
  · rename_i hrest
    exact (serves.op hrest).1
  · cases leaving

/-- What may stand anywhere in a handler: neither a write to the handles or the
names of the scripts nor the start of a script thread. -/
def Op.Tame : Op → Prop
  | .setScriptThreadID _ _ => False
  | .setScriptName _ _ => False
  | .gScriptParamInit => False
  | .pthreadCreate routine => routine ≠ .scriptCmdProcess
  | _ => True

theorem Op.tame_of_group {o : Op} (h : o.group ∉ [.script, .tables]) : o.Tame := by
  cases o with
  | setScriptThreadID | setScriptName | gScriptParamInit => exact absurd (by simp [Op.group]) h
  | pthreadCreate routine => cases routine <;> simp_all [Op.Tame, Op.group]
  | _ => trivial

theorem Op.Calm.tame {o : Op} (h : o.Calm) : o.Tame := by
  cases o <;> trivial

namespace Process

/-- The thread `id` runs the script `w`. -/
def Runs (s : Process) (id : Tid) (w : Worker) : Prop := s.thread id = some (.script w)

/-- Every script thread serves its slot, whose handle it has until it clears
it. The name of its file is there until it has fetched it, and no two threads
have work left on one slot. -/
structure Inv (s : Process) : Prop where
  serves : ∀ id w, s.Runs id w → w.Serves
  named : ∀ id w, s.Runs id w → w.named = false →
    w.cleared = false ∧ s.world.shared.scripts.getScriptName w.slot = .ok w.file
  owns : ∀ id w, s.Runs id w → w.cleared = false →
    ∃ slot : Slot, w.slot = slot ∧ s.world.shared.scripts.thrScriptId slot = id
  joinable : ∀ id w, s.Runs id w → id ≠ 0 ∧ s.world.shared.joinable id = true
  alone : ∀ i j v w, s.Runs i v → s.Runs j w → v.slot = w.slot → v.leaving = false →
    w.leaving = false → i = j

theorem idle_inv (world : World) : (idle world).Inv := by
  constructor <;> simp [idle, Runs]

variable {host : Host} {self : Option Tid} {line : Text} {s t : Process}

theorem Inv.busy (inv : s.Inv) {id : Tid} {w : Worker} (runs : s.Runs id w)
    (cleared : w.cleared = false) : w.leaving = false := by
  by_contra leaving
  have gone := (inv.serves id w runs).cleared (by simpa using leaving)
  simp [cleared] at gone

theorem getScriptName_congr {scripts scripts' : Scripts}
    (same : scripts'.gScriptName = scripts.gScriptName)
    (n : Int) : scripts'.getScriptName n = scripts.getScriptName n := by
  unfold Scripts.getScriptName
  rw [same]

/-- Fewer script threads, with the same handles and names. -/
theorem Inv.mono (inv : s.Inv) (threads : ∀ id w, t.Runs id w → s.Runs id w)
    (handles : t.world.shared.scripts.thrScriptId = s.world.shared.scripts.thrScriptId)
    (names : t.world.shared.scripts.gScriptName = s.world.shared.scripts.gScriptName)
    (joinable : ∀ id w, t.Runs id w → t.world.shared.joinable id = s.world.shared.joinable id) :
    t.Inv := by
  constructor
  · exact fun id w runs => inv.serves id w (threads id w runs)
  · intro id w runs unnamed
    rw [getScriptName_congr names]
    exact inv.named id w (threads id w runs) unnamed
  · intro id w runs cleared
    rw [handles]
    exact inv.owns id w (threads id w runs) cleared
  · intro id w runs
    rw [joinable id w runs]
    exact inv.joinable id w (threads id w runs)
  · exact fun i j v w hv hw => inv.alone i j v w (threads i v hv) (threads j w hw)

theorem Inv.frame (inv : s.Inv) (threads : t.thread = s.thread)
    (same : ∀ p : Part, p ∈ [.scriptHandles, .scriptNames, .joinable] →
      p.Same s.world.shared t.world.shared) :
    t.Inv := by
  refine inv.mono (fun id w runs => by simpa [Runs, threads] using runs)
    (same .scriptHandles (by simp))
    (same .scriptNames (by simp)) ?_
  exact fun id w _ => congrFun (same .joinable (by simp)) id

theorem runs_setThread {id i : Tid} {x : Option Thread} {w : Worker} :
    (s.setThread id x).Runs i w ↔ (i = id ∧ x = some (.script w)) ∨ (i ≠ id ∧ s.Runs i w) := by
  unfold Runs setThread
  by_cases same : i = id
  · subst same
    simp
  · simp [same]

theorem runs_endThread {id i : Tid} {w : Worker} :
    (s.endThread id).Runs i w ↔ i ≠ id ∧ s.Runs i w := by
  refine (runs_setThread (s := s) (x := none)).trans ?_
  simp

theorem Inv.endThread (inv : s.Inv) (id : Tid) : (s.endThread id).Inv :=
  inv.mono (fun _ _ runs => (runs_endThread.mp runs).2) rfl rfl fun _ _ _ => rfl

theorem ended_inv (inv : s.Inv) {o : Op} {e : Halt} (h : operate host self line o s = .error e) :
    e.Safe Inv := by
  cases e with
  | fault f => trivial
  | ended t =>
    obtain ⟨id, -, -, rfl⟩ := operate_ended h
    exact inv.endThread id

theorem tame_inv (inv : s.Inv) {o : Op} (tame : o.Tame) {r : o.Res}
    (h : operate host self line o s = .ok (r, t)) : t.Inv := by
  cases o with
  | setScriptThreadID | setScriptName | gScriptParamInit => exact tame.elim
  | pthreadKill id =>
    obtain rfl := operate_kill h
    exact inv
  | pthreadJoin id =>
    obtain ⟨-, rfl⟩ := operate_join h
    refine inv.mono (fun _ _ runs => (runs_endThread.mp runs).2) rfl rfl fun i w runs => ?_
    exact Function.update_of_ne (runs_endThread.mp runs).1 _ _
  | pthreadCreate routine =>
    rcases operate_create h with ⟨-, rfl⟩ | ⟨id, -, fresh, -, rfl⟩
    · exact inv.frame rfl fun p _ => by cases p <;> rfl
    · have old (i : Tid) (w : Worker) (runs : Runs (setThread id (some (.created line routine))
          (s.setShared { s.world.shared.asked with
            joinable := Function.update s.world.shared.joinable id true })) i w) :
          i ≠ id ∧ s.Runs i w := by
        rcases runs_setThread.mp runs with ⟨-, new⟩ | ⟨other, runs⟩
        · cases routine with
          | scriptCmdProcess => exact absurd rfl tame
          | cmdSend | retReceive => simp [Thread.created] at new
        · exact ⟨other, runs⟩
      refine inv.mono (fun i w runs => (old i w runs).2) rfl rfl fun i w runs => ?_
      exact Function.update_of_ne (old i w runs).1 _ _
  | msgsnd m =>
    obtain ⟨w, hstep, rfl⟩ := operate_msgsnd h
    refine inv.frame rfl fun p hp => interp_frame ?_ hstep
    simp only [List.mem_cons, List.not_mem_nil, or_false] at hp
    rcases hp with rfl | rfl | rfl <;> simp [Op.writes]
  | _ =>
    obtain ⟨w, hstep, rfl⟩ := operate_still rfl h
    refine inv.frame rfl fun p hp => interp_frame ?_ hstep
    simp only [List.mem_cons, List.not_mem_nil, or_false] at hp
    rcases hp with rfl | rfl | rfl <;> simp [Op.writes]

theorem tame_leads {α : Type} {p : Cmd α} (tame : p.Only Op.Tame) (inv : s.Inv) :
    p.Leads (operate host self line) (Halt.Safe Inv) (fun _ => Inv) s :=
  tame.leads (fun _ _ _ _ tame inv h => tame_inv inv tame h) (fun _ _ _ _ inv h =>
    ended_inv inv h) inv

/-! ### The commands on threads -/

theorem touches_leads {α : Type} {p : Cmd α} {groups : List Group} (touches : p.Touches groups)
    (beside : ∀ g ∈ groups, g ∉ [Group.script, .tables]) (inv : s.Inv) :
    p.Leads (operate host self line) (Halt.Safe Inv) (fun _ => Inv) s :=
  tame_leads (Prog.Only.mono (fun _ ho => Op.tame_of_group (beside _ ho)) touches) inv

/-- The handle of a slot can be cleared once its thread is gone. -/
theorem clear_inv (inv : s.Inv) {slot : Slot}
    (gone : ∀ w, ¬ s.Runs (s.world.shared.scripts.thrScriptId slot) w) {r : Unit}
    (h : operate host self line (.setScriptThreadID slot 0) s = .ok (r, t)) : t.Inv := by
  obtain rfl := operate_setScriptThreadID h
  refine ⟨inv.serves, inv.named, fun id w runs cleared => ?_, inv.joinable, inv.alone⟩
  obtain ⟨own, hslot, rfl⟩ := inv.owns id w runs cleared
  have other : own ≠ slot := by
    rintro rfl
    exact gone w runs
  exact ⟨own, hslot, Function.update_of_ne other _ _⟩

/-- What follows a `pthread_kill` and a `pthread_join`. -/
theorem killed_leads {I : Process → Prop} {id : Tid} {f : Cmd Unit} (inv : s.Inv)
    (next : ∀ t, t.Inv → (∀ w, ¬ t.Runs id w) → t.world.params = s.world.params →
      t.world.shared.scripts = s.world.shared.scripts →
      f.Leads (operate host self line) (Halt.Safe Inv) (fun _ => I) t) :
    (pthreadKill id >>= fun _ => pthreadJoin id >>= fun _ => f).Leads (operate host self line)
      (Halt.Safe Inv) (fun _ => I) s := by
  refine .bind_op (fun _ t hkill => ?_) fun _ => ended_inv inv
  obtain rfl := operate_kill hkill
  refine .bind_op (fun _ u hjoin => ?_) fun _ => ended_inv inv
  have kept := tame_inv inv (o := .pthreadJoin id) trivial hjoin
  obtain ⟨-, rfl⟩ := operate_join hjoin
  exact next _ kept (fun w runs => (runs_endThread.mp runs).1 rfl) rfl rfl

/-- No handle is recorded for the slots. -/
def Freed (slots : List Nat) (s : Process) : Prop :=
  ∀ slot : Slot, (slot : Nat) ∈ slots → s.world.shared.scripts.thrScriptId slot = 0

theorem Freed.cons {slots : List Nat} (freed : s.Freed slots) {slot : Slot}
    (zero : s.world.shared.scripts.thrScriptId slot = 0) : s.Freed (slot :: slots) := by
  intro other listed
  rcases List.mem_cons.mp listed with same | before
  · rw [Fin.ext same]
    exact zero
  · exact freed other before

theorem Freed.clear {slots : List Nat} (freed : s.Freed slots) {slot : Slot} {r : Unit}
    (h : operate host self line (.setScriptThreadID slot 0) s = .ok (r, t)) :
    t.Freed (slot :: slots) := by
  obtain rfl := operate_setScriptThreadID h
  apply Freed.cons _ (Function.update_self _ _ _)
  intro other listed
  by_cases same : other = slot
  · subst same
    exact Function.update_self _ _ _
  · exact (Function.update_of_ne same _ _).trans (freed other listed)

theorem stopScript_leads {slots : List Nat} (index : Nat) (inv : s.Inv) (freed : s.Freed slots) :
    (stopScript index).Leads (operate host self line) (Halt.Safe Inv)
      (fun _ t => t.Inv ∧ t.Freed (index :: slots)) s := by
  unfold stopScript
  refine .bind_op (fun scId t hread => ?_) fun _ => ended_inv inv
  obtain ⟨slot, hslot, rfl, rfl⟩ := operate_getScriptThreadID hread
  obtain rfl : index = slot := by exact_mod_cast hslot
  apply Prog.Leads.ite
  · intro zero
    exact ⟨inv, freed.cons zero⟩
  · intro _
    apply killed_leads (I := fun t => t.Inv ∧ t.Freed (slot :: slots)) inv
    intro u kept gone _ scripts
    refine .op (fun _ v hset => ?_) fun _ => ended_inv kept
    have before : u.Freed slots := fun other listed => by
      rw [scripts]
      exact freed other listed
    exact ⟨clear_inv kept (scripts ▸ gone) hset, before.clear hset⟩

theorem stopScripts_leads {indices slots : List Nat} (inv : s.Inv) (freed : s.Freed slots) :
    (each indices stopScript).Leads (operate host self line) (Halt.Safe Inv)
      (fun _ t => t.Inv ∧ t.Freed (indices.reverse ++ slots)) s := by
  induction indices generalizing s slots with
  | nil => exact ⟨inv, freed⟩
  | cons index indices ih =>
    apply Prog.Leads.bind (stopScript_leads index inv freed)
    rintro _ t ⟨inv, freed⟩
    simpa using ih inv freed

/-- Once all threads have fetched the names of their files, these can be wiped. -/
theorem wiped_inv (inv : s.Inv) (named : ∀ id w, s.Runs id w → w.named = true) {r : Unit}
    (h : operate host self line .gScriptParamInit s = .ok (r, t)) : t.Inv := by
  cases h
  refine ⟨inv.serves, fun id w runs unnamed => ?_, inv.owns, inv.joinable, inv.alone⟩
  exact absurd (named id w runs) (by simp [unnamed])

/-- A thread that has not fetched its name has its handle still. -/
theorem Inv.named_of_freed (inv : s.Inv) (freed : s.Freed (List.range 10).reverse)
    {id : Tid} {w : Worker} (runs : s.Runs id w) : w.named = true := by
  by_contra unnamed
  obtain ⟨uncleared, -⟩ := inv.named id w runs (by simpa using unnamed)
  obtain ⟨slot, -, rfl⟩ := inv.owns id w runs uncleared
  exact (inv.joinable _ w runs).1 (freed slot (by simp))

theorem stop_leads (cmdNum : Nat) (inv : s.Inv) :
    (stop cmdNum).Leads (operate host self line) (Halt.Safe Inv) (fun _ => Inv) s := by
  unfold stop
  refine .bind_op (fun sendId t hread => ?_) fun _ => ended_inv inv
  obtain ⟨-, rfl⟩ := operate_getSendThreadID hread
  refine .bind_op (fun recId u hread => ?_) fun _ => ended_inv inv
  obtain ⟨-, rfl⟩ := operate_getRecThreadID hread
  refine .bind_op (fun gParamNum u hread => ?_) fun _ => ended_inv inv
  obtain ⟨-, rfl⟩ := operate_paramNum hread
  have calm {p : Cmd Unit} (h : p.Calm) : p.Leads (operate host self line) (Halt.Safe Inv)
      (fun _ => Inv) u := tame_leads (h.mono fun _ => Op.Calm.tame) inv
  refine .ite (fun _ => calm (wrongParameter_calm cmdNum)) fun _ => ?_
  refine .bind_op (fun mode v hread => ?_) fun _ => ended_inv inv
  obtain ⟨hmode, rfl⟩ := operate_param hread
  refine .ite (fun _ => ?_) fun _ =>
    .ite (fun _ => touches_leads (stopSend_touches _) (by decide) inv) fun _ =>
    .ite (fun _ => touches_leads (stopRec_touches _) (by decide) inv) fun _ => ?_
  · apply Prog.Leads.bind (touches_leads (stopSend_touches _) (by decide) inv)
    intro _ t inv
    apply Prog.Leads.bind (touches_leads (stopRec_touches _) (by decide) inv)
    intro _ t inv
    have nothing : t.Freed [] := fun _ listed => absurd listed List.not_mem_nil
    apply Prog.Leads.bind (stopScripts_leads inv nothing)
    rintro _ t ⟨inv, freed⟩
    refine .bind_op (fun _ u hinit => ?_) fun _ => ended_inv inv
    have wiped := wiped_inv inv (fun _ _ => inv.named_of_freed (by simpa using freed)) hinit
    exact tame_leads ((say_calm _).mono fun _ => Op.Calm.tame) wiped
  · refine .bind_op (fun word w hread => ?_) fun _ => ended_inv inv
    obtain ⟨-, rfl⟩ := operate_param hread
    refine .ite (fun _ => ?_) fun _ => calm (wrongParameter_calm cmdNum)
    refine .bind_op (fun number w hread => ?_) fun _ => ended_inv inv
    obtain ⟨hnumber, rfl⟩ := operate_param hread
    refine .ite (fun _ => calm (say_calm _)) fun _ => ?_
    refine .bind_op (fun scId w hread => ?_) fun _ => ended_inv inv
    obtain ⟨slot, hslot, rfl, rfl⟩ := operate_getScriptThreadID hread
    refine .ite (fun _ => inv) fun _ => killed_leads inv fun t kept gone params scripts => ?_
    -- no other line has run meanwhile, so the second read names the same slot
    refine .bind_op (fun again t' hread => ?_) fun _ => ended_inv kept
    obtain ⟨hagain, rfl⟩ := operate_param hread
    rw [params, hnumber] at hagain
    obtain rfl := Except.ok.inj hagain
    rw [hslot]
    refine .bind_op (fun _ t'' hset => ?_) fun _ => ended_inv kept
    have cleared := clear_inv kept (scripts ▸ gone) hset
    exact tame_leads (p := Cmd.param 1 >>= fun _ => print _)
      ⟨trivial, fun _ => ⟨trivial, fun _ => trivial⟩⟩ cleared

/-- No thread that has cleared the handle of the slot has work left on it. -/
def Vacated (slot : Int) (s : Process) : Prop :=
  ∀ id w, s.Runs id w → w.slot = slot → w.cleared = true → w.leaving = true

/-- The thread just created takes a slot whose handle is zero. -/
theorem created_inv (inv : s.Inv) {slot : Slot} {id : Tid} (nonzero : id ≠ 0)
    (fresh : s.world.shared.joinable id = false) (named : (Worker.created line).slot = slot)
    (stored : s.world.shared.scripts.gScriptName slot = (Worker.created line).file)
    (free : s.world.shared.scripts.thrScriptId slot = 0) (vacated : s.Vacated slot) {r : Unit}
    (h : operate host self line (.setScriptThreadID slot id)
      ((s.setShared { s.world.shared.asked with
        joinable := Function.update s.world.shared.joinable id true }).setThread id
          (some (.created line .scriptCmdProcess))) = .ok (r, t)) : t.Inv := by
  obtain rfl := operate_setScriptThreadID h
  have which {i : Tid} {w : Worker}
      (runs : Runs (setThread id (some (.created line .scriptCmdProcess)) s) i w) :
      (i = id ∧ w = .created line) ∨ (i ≠ id ∧ s.Runs i w) := by
    rcases runs_setThread.mp runs with ⟨same, new⟩ | old
    · exact .inl ⟨same, by simpa [Thread.created] using new.symm⟩
    · exact .inr old
  -- a thread with work left on the slot would still have its handle
  have unused {i : Tid} {w : Worker} (runs : s.Runs i w) (same : w.slot = slot) :
      w.leaving = true := by
    cases hcleared : w.cleared with
    | true => exact vacated i w runs same hcleared
    | false =>
      obtain ⟨own, hown, rfl⟩ := inv.owns i w runs hcleared
      obtain rfl : own = slot := by
        rw [hown] at same
        exact Fin.ext (by exact_mod_cast same)
      exact absurd free (inv.joinable _ w runs).1
  constructor
  · intro i w runs
    rcases which runs with ⟨-, rfl⟩ | ⟨-, old⟩
    · exact scriptCmdProcess_serves
    · exact inv.serves i w old
  · intro i w runs unnamed
    rcases which runs with ⟨-, rfl⟩ | ⟨-, old⟩
    · rw [named, Scripts.getScriptName_slot]
      exact ⟨rfl, congrArg Except.ok stored⟩
    · exact inv.named i w old unnamed
  · intro i w runs hcleared
    rcases which runs with ⟨rfl, rfl⟩ | ⟨-, old⟩
    · exact ⟨slot, named, Function.update_self _ _ _⟩
    · obtain ⟨own, hown, hid⟩ := inv.owns i w old hcleared
      have other : own ≠ slot := by
        intro same
        have busy := inv.busy old hcleared
        simp [unused old (same ▸ hown)] at busy
      exact ⟨own, hown, (Function.update_of_ne other _ _).trans hid⟩
  · intro i w runs
    rcases which runs with ⟨rfl, -⟩ | ⟨other, old⟩
    · exact ⟨nonzero, Function.update_self _ _ _⟩
    · exact ⟨(inv.joinable i w old).1,
        (Function.update_of_ne other _ _).trans (inv.joinable i w old).2⟩
  · intro i j v w hv hw same vbusy wbusy
    rcases which hv with ⟨hi, rfl⟩ | ⟨-, vold⟩
    · rcases which hw with ⟨hj, -⟩ | ⟨-, wold⟩
      · exact hi.trans hj.symm
      · simp [unused wold (same.symm.trans named)] at wbusy
    · rcases which hw with ⟨-, rfl⟩ | ⟨-, wold⟩
      · simp [unused vold (same.trans named)] at vbusy
      · exact inv.alone i j v w vold wold same vbusy wbusy

theorem snprintf_leads {I : Process → Prop} {size : Nat} {fmt : Text} {f : Text → Cmd Unit}
    (hf : ∀ name, (f name).Leads (operate host self line) (Halt.Safe I) (fun _ => I) s) :
    (Cmd.snprintf size fmt >>= f).Leads (operate host self line) (Halt.Safe I) (fun _ => I) s := by
  cases hname : CString.snprintf size fmt with
  | none =>
    rw [Cmd.snprintf_none hname]
    exact trivial
  | some name =>
    rw [Cmd.snprintf_some hname]
    exact hf name

/-- The name of a slot without a handle is nobody's. -/
theorem renamed_inv (inv : s.Inv) {slot : Slot} (free : s.world.shared.scripts.thrScriptId slot = 0)
    {name : Text} {r : Unit} (h : operate host self line (.setScriptName slot name) s = .ok (r, t)) :
    t.Inv ∧ t = s.setShared { s.world.shared with scripts := { s.world.shared.scripts with
      gScriptName := Function.update s.world.shared.scripts.gScriptName slot name } } := by
  obtain ⟨w, hset, rfl⟩ := operate_still rfl h
  simp only [interp, sharedStep, Scripts.setScriptName_slot, writing, Except.ok.injEq,
    Prod.mk.injEq] at hset
  obtain ⟨-, rfl⟩ := hset
  refine ⟨⟨inv.serves, fun id w runs unnamed => ?_, inv.owns, inv.joinable, inv.alone⟩, rfl⟩
  obtain ⟨uncleared, stored⟩ := inv.named id w runs unnamed
  obtain ⟨own, hown, rfl⟩ := inv.owns id w runs uncleared
  have other : own ≠ slot := by
    rintro rfl
    exact (inv.joinable _ w runs).1 free
  rw [hown, Scripts.getScriptName_slot] at stored ⊢
  exact ⟨uncleared, (congrArg Except.ok (Function.update_of_ne other _ _)).trans stored⟩

/-- The handler of a line. -/
def lineFunc (line : Text) : Option Func := do
  let argv ← lineTokens line
  let name ← argv.head?
  commandFunc name

def Calls (f : Func) (argv : List Text) (line : Text) : Prop :=
  lineTokens line = some argv ∧ lineFunc line = some f

/-- `start` gets as far as `msgget`, which yields a queue. -/
def OpensQueue (host : Host) (s : Shared) : Prop :=
  host.openMsgFile s.calls ≠ AtStat.failed.toInt ∧ host.ftok (s.calls + 1) ≠ -1 ∧
    host.msgget (s.calls + 2) ≠ -1

/-- What a line of `runScript` or `start` asks of the script threads. -/
structure CarefulLine (host : Host) (line : Text) (s : Process) : Prop where
  /-- a thread is created for the number and the file of the line as typed, and
  no thread has work left on the slot without its handle -/
  creates : ∀ argv (slot : Slot), Calls .runScript argv line → argv.length = 3 →
    atoi (argv.getD 1 []) = slot → s.world.shared.thrCmdSendId ≠ 0 →
      s.world.shared.scripts.thrScriptId slot = 0 → (Worker.created line).slot = slot ∧
        CString.snprintf maxFileName (argv.getD 2 []) = some (Worker.created line).file ∧
          s.Vacated slot
  /-- the names are wiped when every thread has fetched its own -/
  wipes : ∀ argv, Calls .start argv line → argv.length = 2 → argv.getD 1 [] ≠ paramRec →
    OpensQueue host s.world.shared → ∀ id w, s.Runs id w → w.named = true

/-- The lines of the other handlers ask for nothing. -/
theorem careful_line (scripts : lineFunc line ≠ some .runScript)
    (starts : lineFunc line = some .start → ∀ id w, s.Runs id w → w.named = true) :
    s.CarefulLine host line := by
  constructor
  · intro argv slot called
    exact absurd called.2 scripts
  · intro argv called _ _ _
    exact starts called.2

theorem runScript_leads (cmdNum : Nat) (inv : s.Inv) {argv : List Text} {old : Params}
    (loaded : Params.Loaded argv old s.world.params)
    (called : 0 < argv.length → Calls .runScript argv line) (careful : s.CarefulLine host line) :
    (runScript cmdNum).Leads (operate host self line) (Halt.Safe Inv) (fun _ => Inv) s := by
  unfold runScript
  have calm {p : Cmd Unit} (h : p.Calm) : p.Leads (operate host self line) (Halt.Safe Inv)
      (fun _ => Inv) s := tame_leads (h.mono fun _ => Op.Calm.tame) inv
  refine .bind_op (fun sendId t hread => ?_) fun _ => ended_inv inv
  obtain ⟨rfl, rfl⟩ := operate_getSendThreadID hread
  refine .ite (fun _ => calm (say_calm _)) fun testing => ?_
  refine .bind_op (fun gParamNum u hread => ?_) fun _ => ended_inv inv
  obtain ⟨hcount, rfl⟩ := operate_paramNum hread
  refine .ite (fun _ => calm (wrongParameter_calm cmdNum)) fun two => ?_
  have three : argv.length = 3 := by
    rw [loaded.count] at hcount
    omega
  refine .bind_op (fun number u hread => ?_) fun _ => ended_inv inv
  obtain ⟨hnumber, rfl⟩ := operate_param hread
  obtain rfl : argv.getD 1 [] = number := by
    rw [loaded.own 1 (by omega)] at hnumber
    simpa [List.getD, three] using hnumber
  refine .ite (fun _ => calm (wrongParameter_calm cmdNum)) fun _ => ?_
  refine .bind_op (fun scId v hread => ?_) fun _ => ended_inv inv
  obtain ⟨slot, hslot, hfree, rfl⟩ := operate_getScriptThreadID hread
  refine .ite (fun _ => calm (say_calm _)) fun free => ?_
  have free : v.world.shared.scripts.thrScriptId slot = 0 := hfree.symm.trans (not_not.mp free)
  obtain ⟨own, written, vacated⟩ :=
    careful.creates argv slot (called (by omega)) three hslot testing free
  refine .bind_op (fun typed v hread => ?_) fun _ => ended_inv inv
  obtain ⟨htyped, rfl⟩ := operate_param hread
  obtain rfl : argv.getD 2 [] = typed := by
    rw [loaded.own 2 (by omega)] at htyped
    simpa [List.getD, three] using htyped
  rw [Cmd.snprintf_some written]
  refine .bind_op (fun _ v hname => ?_) fun _ => ended_inv inv
  rw [hslot] at hname
  obtain ⟨kept, rfl⟩ := renamed_inv inv free hname
  refine .bind_op (fun created x hcreate => ?_) fun _ => ended_inv kept
  rcases operate_create hcreate with ⟨rfl, rfl⟩ | ⟨id, nonzero, fresh, rfl, rfl⟩
  · refine tame_leads ((say_calm _).mono fun _ => Op.Calm.tame) (kept.frame rfl fun p _ => ?_)
    cases p <;> rfl
  · refine .op (fun _ y hset => ?_) fun e he => ?_
    · rw [hslot] at hset
      exact created_inv kept nonzero fresh own (Function.update_self ..) free vacated hset
    · cases e with
      | fault f => trivial
      | ended y =>
        obtain ⟨id, kill, -, -⟩ := operate_ended he
        cases kill

theorem start_leads (cmdNum : Nat) (inv : s.Inv) {argv : List Text} {old : Params}
    (loaded : Params.Loaded argv old s.world.params)
    (called : 0 < argv.length → Calls .start argv line) (careful : s.CarefulLine host line) :
    (start cmdNum).Leads (operate host self line) (Halt.Safe Inv) (fun _ => Inv) s := by
  unfold start
  have said {t : Process} (text : String) (inv : t.Inv) : (say text).Leads (operate host self line)
      (Halt.Safe Inv) (fun _ => Inv) t := tame_leads ((say_calm text).mono fun _ => Op.Calm.tame) inv
  have wrong {t : Process} (inv : t.Inv) : (wrongParameter cmdNum).Leads (operate host self line)
      (Halt.Safe Inv) (fun _ => Inv) t :=
        tame_leads ((wrongParameter_calm cmdNum).mono fun _ => Op.Calm.tame) inv
  refine .bind_op (fun gParamNum t hread => ?_) fun _ => ended_inv inv
  obtain ⟨hcount, rfl⟩ := operate_paramNum hread
  refine .ite (fun _ => wrong inv) fun one => ?_
  have two : argv.length = 2 := by
    rw [loaded.count] at hcount
    omega
  refine .bind_op (fun sendId t hread => ?_) fun _ => ended_inv inv
  obtain ⟨-, rfl⟩ := operate_getSendThreadID hread
  refine .bind_op (fun recId t hread => ?_) fun _ => ended_inv inv
  obtain ⟨-, rfl⟩ := operate_getRecThreadID hread
  refine .bind_op (fun mode t hread => ?_) fun _ => ended_inv inv
  obtain ⟨hmode, rfl⟩ := operate_param hread
  obtain rfl : argv.getD 1 [] = mode := by
    rw [loaded.own 1 (by omega)] at hmode
    simpa [List.getD, two] using hmode
  refine .ite (fun _ => ?_) fun other => ?_
  · refine .ite (fun _ => said _ inv) fun _ => touches_leads createRec_touches (by decide) inv
  have asked {t : Process} (inv : t.Inv) : (t.setShared t.world.shared.asked).Inv :=
    inv.frame rfl fun p _ => by cases p <;> rfl
  refine .bind_op (fun stat t hopen => ?_) fun _ => ended_inv inv
  cases hopen
  refine .ite (fun _ => said _ (asked inv)) fun opened => ?_
  refine .bind_op (fun key t hkey => ?_) fun _ => ended_inv (asked inv)
  cases hkey
  refine .ite (fun _ => said _ (asked (asked inv))) fun keyed => ?_
  refine .bind_op (fun id t hget => ?_) fun _ => ended_inv (asked (asked inv))
  have kept := tame_inv (asked (asked inv)) (o := .msgget _) trivial hget
  cases hget
  refine .ite (fun _ => said _ kept) fun queued => ?_
  have named := careful.wipes argv (called (by omega)) two other ⟨opened, keyed, queued⟩
  refine .bind_op (fun _ t hinit => ?_) fun _ => ended_inv kept
  exact touches_leads (startMode_touches cmdNum _ _) (by decide) (wiped_inv kept named hinit)

theorem dispatch_leads (name : Text) (inv : s.Inv) {argv : List Text} {old : Params}
    (loaded : Params.Loaded argv old s.world.params) (tokens : lineTokens line = some argv)
    (first : ∀ t, argv.head? = some t → t = name) (careful : s.CarefulLine host line) :
    (dispatch name).Leads (operate host self line) (Halt.Safe Inv) (fun _ => Inv) s := by
  unfold dispatch
  cases code : getCmdCode name with
  | none => exact tame_leads ((say_calm _).mono fun _ => Op.Calm.tame) inv
  | some cmdNum =>
    dsimp only
    cases threads : (cmdEntry cmdNum).func.threads with
    | false =>
      have calm := Func.run_calm cmdNum threads
      exact tame_leads (calm.mono fun _ => Op.Calm.tame) inv
    | true =>
      have called {f : Func} (func : (cmdEntry cmdNum).func = f) (some_token : 0 < argv.length) :
          Calls f argv line := by
        have head : argv.head? = some argv[0] :=
          (List.head?_eq_getElem? ..).trans (List.getElem?_eq_getElem _)
        exact ⟨tokens, by simp [lineFunc, tokens, first _ head ▸ head, commandFunc, code, func]⟩
      cases func : (cmdEntry cmdNum).func with
      | start => exact start_leads cmdNum inv loaded (called func) careful
      | stop => exact stop_leads cmdNum inv
      | quit => exact touches_leads (quit_touches cmdNum) (by decide) inv
      | runScript => exact runScript_leads cmdNum inv loaded (called func) careful
      | _ => simp [func, Func.threads] at threads

theorem handle_inv (inv : s.Inv) (careful : s.CarefulLine host line)
    (h : s.handle host self line = .ok t) : t.Inv := by
  have leads : (cmdProc line).Leads (operate host self line) (Halt.Safe Inv) (fun _ => Inv) s := by
    unfold cmdProc
    refine .bind_op (fun _ u hset => ?_) fun _ => ended_inv inv
    have kept := tame_inv inv (o := .setParams line) trivial hset
    obtain ⟨argv, p, tokens, loaded, rfl⟩ := operate_setParams hset
    refine .bind_op (fun name v hread => ?_) fun _ => ended_inv kept
    obtain ⟨hname, rfl⟩ := operate_param hread
    refine dispatch_leads name kept loaded tokens ?_ ⟨careful.creates, careful.wipes⟩
    intro first head
    obtain ⟨inside, rfl⟩ := List.getElem?_eq_some_iff.mp ((List.head?_eq_getElem? ..).symm.trans head)
    exact Except.ok.inj ((loaded.own 0 inside).symm.trans hname)
  exact settle_leads leads h

/-! ### The script threads -/

/-- A script thread goes on with the answer it was given. -/
theorem moved_inv (inv : s.Inv) {id : Tid} {w : Worker} (runs : s.Runs id w) {o : Op}
    {k : o.Res → Cmd Unit} (hrest : w.rest = .op o k) (stays : o ≠ .pthreadExit) {r : o.Res}
    (hands : o.Hands w.slot w.file r) {world : World}
    (handles : ∀ slot : Slot, world.shared.scripts.thrScriptId slot =
      s.world.shared.scripts.thrScriptId slot ∨ (w.slot = slot ∧ o.clears w.slot = true))
    (names : world.shared.scripts.gScriptName = s.world.shared.scripts.gScriptName)
    (joinable : world.shared.joinable = s.world.shared.joinable) :
    Inv (setThread id (some (.script (w.moved o (k r)))) { s with world := world }) := by
  have busy : w.leaving = false := by
    unfold Worker.leaving
    rw [hrest]
    cases o <;> first | rfl | exact absurd rfl stays
  have which {i : Tid} {v : Worker}
      (hv : Runs (setThread id (some (.script (w.moved o (k r)))) { s with world := world }) i v) :
      (i = id ∧ v = w.moved o (k r)) ∨ (i ≠ id ∧ s.Runs i v) := by
    rcases runs_setThread.mp hv with ⟨same, new⟩ | old
    · exact .inl ⟨same, by simpa using new.symm⟩
    · exact .inr old
  obtain ⟨next, serves⟩ := (inv.serves id w runs).op hrest
  constructor
  · intro i v hv
    rcases which hv with ⟨-, rfl⟩ | ⟨-, old⟩
    · exact serves r hands
    · exact inv.serves i v old
  · intro i v hv unnamed
    change v.cleared = false ∧ world.shared.scripts.getScriptName v.slot = .ok v.file
    rw [getScriptName_congr names]
    rcases which hv with ⟨-, rfl⟩ | ⟨-, old⟩
    · obtain ⟨hw, -⟩ := Bool.or_eq_false_iff.mp unnamed
      obtain ⟨uncleared, stored⟩ := inv.named id w runs hw
      refine ⟨?_, stored⟩
      -- the handle is cleared by a thread that has fetched its name
      have keeps : o.clears w.slot = false := by
        cases o with
        | setScriptThreadID n id =>
          obtain ⟨-, -, named⟩ := next
          exact absurd named (by simp [hw])
        | _ => rfl
      simp [Worker.moved, uncleared, keeps]
    · exact inv.named i v old unnamed
  · intro i v hv uncleared
    rcases which hv with ⟨rfl, rfl⟩ | ⟨other, old⟩
    · obtain ⟨hw, hclears⟩ := Bool.or_eq_false_iff.mp uncleared
      obtain ⟨slot, hslot, hid⟩ := inv.owns i w runs hw
      refine ⟨slot, hslot, ?_⟩
      rcases handles slot with same | ⟨-, cleared⟩
      · exact same.trans hid
      · simp [hclears] at cleared
    · obtain ⟨slot, hslot, hid⟩ := inv.owns i v old uncleared
      refine ⟨slot, hslot, ?_⟩
      rcases handles slot with same | ⟨own, -⟩
      · exact same.trans hid
      · exact absurd (inv.alone i id v w old runs (hslot.trans own.symm)
          (inv.busy old uncleared) busy) other
  · intro i v hv
    have known : i ≠ 0 ∧ s.world.shared.joinable i = true := by
      rcases which hv with ⟨rfl, -⟩ | ⟨-, old⟩
      · exact inv.joinable i w runs
      · exact inv.joinable i v old
    exact ⟨known.1, (congrFun joinable i).trans known.2⟩
  · intro i j v u hv hu same vbusy ubusy
    rcases which hv with ⟨rfl, rfl⟩ | ⟨-, vold⟩
    · rcases which hu with ⟨hj, -⟩ | ⟨-, uold⟩
      · exact hj.symm
      · exact inv.alone i j w u runs uold same busy ubusy
    · rcases which hu with ⟨rfl, rfl⟩ | ⟨-, uold⟩
      · exact inv.alone i j v w vold runs same vbusy busy
      · exact inv.alone i j v u vold uold same vbusy ubusy

/-- The number that the last line gives as its first argument, none if a list
of keys has been tokenised since. -/
def number (s : Process) : Option Int := s.last.bind argNumber

/-- A thread that fetches its slot number comes right after a line with that
number, and the line it passes on is as it should be. -/
def CarefulNext (host : Host) (w : Worker) (s : Process) : Prop :=
  match w.rest with
  | .op (.param _) _ => s.number = some w.slot
  | .op (.call line) _ => s.CarefulLine host line
  | _ => True

/-- The tokens of the last line are in the array. -/
def Tokens (s : Process) : Prop := s.world.params.Holds s.last

theorem idle_tokens (world : World) : (idle world).Tokens := fun _ last => by cases last

theorem advanceScript_op {w : Worker} {id : Tid} {o : Op} {k : o.Res → Cmd Unit}
    (hrest : w.rest = .op o k) (stays : o ≠ .pthreadExit) (noCall : ∀ line, o ≠ .call line) :
    s.advanceScript host id w =
      match interp host (fun _ => .ok) o s.world with
      | .ok (r, world) =>
        .ok ({ s with world := world }.setThread id (some (.script (w.moved o (k r)))))
      | .error f => .error f := by
  unfold advanceScript
  rw [hrest]
  cases o with
  | pthreadExit => exact absurd rfl stays
  | call line => exact absurd rfl (noCall line)
  | _ => rfl

theorem advanceScript_call {w : Worker} {id : Tid} {line : Text} {k : Unit → Cmd Unit}
    (hrest : w.rest = .op (.call line) k) : s.advanceScript host id w =
      (s.setThread id (some (.script { w with rest := k () }))).handle host (some id) line := by
  unfold advanceScript
  rw [hrest]

/-- A step of a script ends it, processes a line, or performs an operation. -/
theorem advanceScript_cases {id : Tid} {w : Worker} (h : s.advanceScript host id w = .ok t) :
    t = s.endThread id ∨
      (∃ line k, w.rest = .op (.call line) k ∧
        (s.setThread id (some (.script { w with rest := k () }))).handle host
          (some id) line = .ok t) ∨
      ∃ o k r world, w.rest = .op o k ∧ interp host (fun _ => .ok) o s.world = .ok (r, world) ∧
        t = { s with world := world }.setThread id
          (some (.script (w.moved o (k r)))) := by
  cases hrest : w.rest with
  | pure a => simp [advanceScript, hrest] at h
  | op o k =>
    by_cases exits : o = .pthreadExit
    · subst exits
      exact .inl (by simpa [advanceScript, hrest] using h.symm)
    by_cases passes : ∃ line, o = .call line
    · obtain ⟨line, rfl⟩ := passes
      rw [advanceScript_call hrest] at h
      exact .inr (.inl ⟨line, k, rfl, h⟩)
    · have noCall : ∀ line, o ≠ .call line := fun line same => passes ⟨line, same⟩
      rw [advanceScript_op hrest exits noCall] at h
      cases hstep : interp host (fun _ => .ok) o s.world with
      | error f => simp [hstep] at h
      | ok answer =>
        simp only [hstep, Except.ok.injEq] at h
        exact .inr (.inr ⟨o, k, answer.1, answer.2, rfl, hstep, h.symm⟩)

/-- What a thread fetches is what its line gave. -/
theorem Inv.hands (inv : s.Inv) (tokens : s.Tokens) {id : Tid} {w : Worker}
    (runs : s.Runs id w) {o : Op}
    {k : o.Res → Cmd Unit} (hrest : w.rest = .op o k) (careful : s.CarefulNext host w)
    (stays : o ≠ .pthreadExit) {r : o.Res} {world : World}
    (hstep : interp host (fun _ => .ok) o s.world = .ok (r, world)) : o.Hands w.slot w.file r := by
  have next := ((inv.serves id w runs).op hrest).1
  unfold CarefulNext at careful
  rw [hrest] at careful
  cases o with
  | param i =>
    obtain rfl : i = 1 := next
    obtain ⟨t, read, number⟩ := Params.Holds.number tokens careful
    simp only [interp, read, reading, Except.ok.injEq, Prod.mk.injEq] at hstep
    obtain ⟨rfl, -⟩ := hstep
    exact number
  | getScriptName n =>
    obtain ⟨rfl, unnamed⟩ := next
    obtain ⟨-, stored⟩ := inv.named id w runs unnamed
    simp only [interp, sharedStep, stored, reading, Except.ok.injEq, Prod.mk.injEq] at hstep
    exact hstep.1.symm
  | pthreadExit => exact absurd rfl stays
  | _ => trivial

theorem advanceScript_inv (inv : s.Inv) (tokens : s.Tokens) {id : Tid} {w : Worker}
    (runs : s.Runs id w)
    (careful : s.CarefulNext host w) (h : s.advanceScript host id w = .ok t) : t.Inv := by
  cases hrest : w.rest with
  | pure a => simp [advanceScript, hrest] at h
  | op o k =>
    have serves := ((inv.serves id w runs).op hrest).1
    by_cases exits : o = .pthreadExit
    · subst exits
      obtain rfl : s.endThread id = t := by simpa [advanceScript, hrest] using h
      exact inv.endThread id
    by_cases passes : ∃ line, o = .call line
    · obtain ⟨line, rfl⟩ := passes
      have careful : s.CarefulLine host line := by simpa [CarefulNext, hrest] using careful
      have moved : Inv (s.setThread id (some (.script { w with rest := k () }))) := by
        have keeps : { w with rest := k () } = w.moved (.call line) (k ()) := by
          simp [Worker.moved, Op.fetches, Op.clears]
        rw [keeps]
        exact moved_inv inv runs hrest (by simp) trivial (fun _ => .inl rfl) rfl rfl
      rw [advanceScript_call hrest] at h
      refine handle_inv moved ⟨?_, ?_⟩ h
      · intro argv slot called three number testing free
        obtain ⟨own, written, vacated⟩ := careful.creates argv slot called three number testing free
        refine ⟨own, written, ?_⟩
        intro i v hv same cleared
        rcases runs_setThread.mp hv with ⟨-, new⟩ | ⟨-, old⟩
        · -- the thread itself passes a line on, so it is not one that has only to exit
          obtain rfl : { w with rest := k () } = v := by simpa using new
          have leaving := vacated id w runs same cleared
          simp [Worker.leaving, hrest] at leaving
        · exact vacated i v old same cleared
      · intro argv called two other opens i v hv
        have named := careful.wipes argv called two other opens
        rcases runs_setThread.mp hv with ⟨-, new⟩ | ⟨-, old⟩
        · obtain rfl : { w with rest := k () } = v := by simpa using new
          exact named id w runs
        · exact named i v old
    · have noCall : ∀ line, o ≠ .call line := fun line same => passes ⟨line, same⟩
      rw [advanceScript_op hrest exits noCall] at h
      cases hstep : interp host (fun _ => .ok) o s.world with
      | error f => simp [hstep] at h
      | ok rw' =>
        obtain ⟨r, world⟩ := rw'
        simp only [hstep, Except.ok.injEq] at h
        subst h
        have hands := inv.hands tokens runs hrest careful exits hstep
        refine moved_inv inv runs hrest exits hands (fun slot => ?_) ?_ ?_
        · by_cases sets : ∃ n id, o = .setScriptThreadID n id
          · obtain ⟨n, id, rfl⟩ := sets
            obtain ⟨rfl, rfl, -⟩ := serves
            by_cases own : w.slot = slot
            · exact .inr ⟨own, by simp [Op.clears]⟩
            · left
              simp only [interp] at hstep
              split at hstep
              · rename_i hshared
                cases hstep
                obtain ⟨scripts, hset, rfl⟩ := writing_ok hshared
                exact Scripts.setScriptThreadID_other hset own
              · cases hstep
          · left
            refine congrFun (interp_frame (p := .scriptHandles) ?_ hstep) slot
            cases o <;> simp_all [Op.writes]
        · refine interp_frame (p := .scriptNames) ?_ hstep
          cases o <;> first | exact serves.elim | simp [Op.writes]
        · refine interp_frame (p := .joinable) ?_ hstep
          cases o <;> first | exact serves.elim | simp [Op.writes]

/-! ### The token array -/

theorem Tokens.frame (tokens : s.Tokens) (last : t.last = s.last)
    (params : t.world.params = s.world.params) : t.Tokens := by
  unfold Tokens
  rw [params, last]
  exact tokens

theorem operate_tokens (tokens : s.Tokens) {o : Op} {r : o.Res}
    (h : operate host self line o s = .ok (r, t)) : t.Tokens := by
  cases o with
  | pthreadKill id =>
    obtain rfl := operate_kill h
    exact tokens
  | pthreadJoin id =>
    obtain ⟨-, rfl⟩ := operate_join h
    exact tokens.frame rfl rfl
  | pthreadCreate routine =>
    rcases operate_create h with ⟨-, rfl⟩ | ⟨id, -, -, -, rfl⟩ <;> exact tokens.frame rfl rfl
  | msgsnd m =>
    obtain ⟨w, hstep, rfl⟩ := operate_msgsnd h
    exact interp_holds tokens hstep
  | _ =>
    obtain ⟨w, hstep, rfl⟩ := operate_still rfl h
    exact interp_holds tokens hstep

theorem tokens_leads {α : Type} {p : Cmd α} (tokens : s.Tokens) :
    p.Leads (operate host self line) (Halt.Safe Tokens) (fun _ => Tokens) s := by
  have every : p.Only fun _ => True := by
    induction p with
    | pure a => trivial
    | op o k ih => exact ⟨trivial, fun r => ih r⟩
  refine every.leads (fun _ _ _ _ _ tokens h => operate_tokens tokens h)
    (fun o s e _ tokens h => ?_) tokens
  cases e with
  | fault f => trivial
  | ended t =>
    obtain ⟨id, -, -, rfl⟩ := operate_ended h
    exact tokens.frame rfl rfl

theorem handle_tokens (tokens : s.Tokens) (h : s.handle host self line = .ok t) : t.Tokens :=
  settle_leads (tokens_leads tokens) h

theorem advanceScript_tokens (inv : s.Inv) (tokens : s.Tokens) {id : Tid} {w : Worker}
    (runs : s.Runs id w) (h : s.advanceScript host id w = .ok t) : t.Tokens := by
  rcases advanceScript_cases h with rfl | ⟨line, k, hrest, h⟩ | ⟨o, k, r, world, hrest, hstep, rfl⟩
  · exact tokens.frame rfl rfl
  · have moved : Tokens (s.setThread id (some (.script { w with rest := k () }))) :=
      tokens.frame rfl rfl
    exact handle_tokens moved h
  · -- a script thread leaves the splitting to `cmd_proc`
    have serves := ((inv.serves id w runs).op hrest).1
    have kept : o.tokenised s.last = s.last := by cases o <;> first | rfl | exact serves.elim
    have holds : world.params.Holds (o.tokenised s.last) := interp_holds tokens hstep
    rwa [kept] at holds

theorem advanceSend_tokens (tokens : s.Tokens) {id : Tid} {stage : Sender}
    (h : s.advanceSend id stage = .ok t) : t.Tokens := by
  unfold advanceSend at h
  cases hstep : stage.step s.world.shared with
  | error f => simp [hstep] at h
  | ok r =>
    simp only [hstep, Except.ok.injEq] at h
    subst h
    exact tokens.frame rfl rfl

theorem step_tokens {e : ProcessEvent} (inv : s.Inv) (tokens : s.Tokens) (h : s.step host e = .ok t) :
    t.Tokens := by
  cases e with
  | line self line =>
    simp only [step] at h
    split at h
    · exact handle_tokens tokens h
    · cases h
  | log id text =>
    simp only [step] at h
    split at h
    · exact settle_leads (tokens_leads tokens) h
    · cases h
  | advance id =>
    simp only [step] at h
    cases hthread : s.thread id with
    | none => simp [hthread] at h
    | some thread =>
      cases thread with
      | receive => simp [hthread] at h
      | script w =>
        simp only [hthread] at h
        exact advanceScript_tokens inv tokens hthread h
      | send stage =>
        simp only [hthread] at h
        exact advanceSend_tokens tokens h

/-! ## Every run -/

/-- Threads fetch what their lines gave, and the lines are careful. -/
def Careful (host : Host) : ProcessEvent → Process → Prop
  | .line _ line, s => s.CarefulLine host line
  | .advance id, s => ∀ w, s.Runs id w → s.CarefulNext host w
  | .log _ _, _ => True

theorem advanceSend_inv (inv : s.Inv) {id : Tid} {stage : Sender}
    (h : s.advanceSend id stage = .ok t) : t.Inv := by
  unfold advanceSend at h
  cases hstep : stage.step s.world.shared with
  | error f => simp [hstep] at h
  | ok r =>
    obtain ⟨next, shared, gone⟩ := r
    have moved := (Sender.step_moves hstep).1
    simp only [hstep, Except.ok.injEq] at h
    subst h
    refine inv.mono (fun i w runs => ?_) ?_ ?_ fun i w _ => ?_
    · rcases runs_setThread.mp runs with ⟨-, new⟩ | ⟨-, old⟩
      · cases new
      · exact old
    · exact congrArg (fun shared => shared.scripts.thrScriptId) moved
    · exact congrArg (fun shared => shared.scripts.gScriptName) moved
    · exact congrArg (fun shared => shared.joinable i) moved

theorem step_inv {e : ProcessEvent} (inv : s.Inv) (tokens : s.Tokens) (careful : Careful host e s)
    (h : s.step host e = .ok t) : t.Inv := by
  cases e with
  | line self line =>
    simp only [step] at h
    split at h
    · exact handle_inv inv careful h
    · cases h
  | log id text =>
    simp only [step] at h
    split at h
    · exact settle_leads (tame_leads ((syslogProcess_calm text).mono fun _ => Op.Calm.tame) inv) h
    · cases h
  | advance id =>
    simp only [step] at h
    cases hthread : s.thread id with
    | none => simp [hthread] at h
    | some thread =>
      cases thread with
      | receive => simp [hthread] at h
      | script w =>
        simp only [hthread] at h
        exact advanceScript_inv inv tokens hthread (careful w hthread) h
      | send stage =>
        simp only [hthread] at h
        exact advanceSend_inv inv h

/-- What a script thread does next is about its own slot and file, it ends
after it has cleared the handle, and it shares its slot with no other thread. -/
structure HandedOver (s : Process) : Prop where
  next : ∀ id w o k, s.Runs id w → w.rest = .op o k → o.Serves w.slot w.file w.named w.cleared
  alone : ∀ i j v w, s.Runs i v → s.Runs j w → v.slot = w.slot → v.leaving = false →
    w.leaving = false → i = j

/-- In a run in which a thread fetches its slot number right after a line with
that number, and its file name before the names are wiped, and in which no slot
is given away while a thread works on it without its handle, every script
thread works on the slot and the file that its line named. -/
theorem script_handed_over (host : Host) (world : World) (run : List ProcessEvent)
    (careful : Along (step host) (Careful host) run (idle world)) {s : Process}
    (reached : runAll (step host) run (idle world) = .ok s) : s.HandedOver := by
  obtain ⟨inv, -⟩ : s.Inv ∧ s.Tokens := Along.invariant (fun s => s.Inv ∧ s.Tokens)
    (fun _ _ _ kept careful h => ⟨step_inv kept.1 kept.2 careful h, step_tokens kept.1 kept.2 h⟩)
    ⟨idle_inv world, idle_tokens world⟩ careful reached
  exact ⟨fun id w o k runs hrest => ((inv.serves id w runs).op hrest).1, inv.alone⟩

section Sample

/-- A host whose threads are numbered by the calls made before. -/
def numberingHost : Host :=
  .willing (fun n => 5 + n) (fun n => some (n + 1)) fun _ => some "delay 1;\n".toList

/-- Whether the event is careful for a reason that a run can be searched for. -/
def plain (e : ProcessEvent) (s : Process) : Bool :=
  match e with
  | .line _ line => (lineFunc line).all fun f => f ≠ .runScript && f ≠ .start
  | .log _ _ => true
  | .advance id =>
    match s.thread id with
    | some (.script w) =>
      match w.rest with
      | .op (.param _) _ => s.number = some w.slot
      | .op (.call _) _ => false
      | _ => true
    | _ => true

theorem careful_of_plain {e : ProcessEvent} (h : s.plain e = true) : Careful host e s := by
  cases e with
  | log id text => trivial
  | line self line =>
    apply careful_line
    · intro runs
      simp [plain, runs] at h
    · intro starts
      simp [plain, starts] at h
  | advance id =>
    intro w runs
    have hthread : s.thread id = some (.script w) := runs
    simp only [plain, hthread] at h
    unfold CarefulNext
    split at h
    · simpa using h
    · cases h
    · trivial

/-- Test mode is on. -/
def testing : World :=
  let s := Shared.initial fun _ => none
  ⟨.initial, { s with thrCmdSendId := 4 }⟩

def scriptLine1 : Text := "rs 1 f".toList

/-- Other lines come before the thread has fetched its number, and before it
has fetched the name of its file. -/
def afterScriptLine1 : List ProcessEvent :=
  [.line none "look 1".toList, .advance 1, .advance 1, .line none "delay 5".toList,
    .advance 1, .advance 1, .advance 1]

/-- The slot for which a script thread is about to allocate its buffer, and its own. -/
def allocates (id : Tid) (s : Process) : Option (Int × Int × Text) :=
  match s.thread id with
  | some (.script w) =>
    match w.rest with
    | .op (.mallocScript n) _ => some (n, w.slot, w.file)
    | _ => none
  | _ => none

theorem scriptLine1_careful :
    Along (step numberingHost) (Careful numberingHost) (.line none scriptLine1 :: afterScriptLine1)
      (idle testing) := by
  have searched : (step numberingHost (.line none scriptLine1) (idle testing)).toOption.all (fun s =>
      decide (Along (step numberingHost) (fun e s => s.plain e = true) afterScriptLine1 s)) =
        true := by
    decide +kernel
  refine ⟨⟨?_, ?_⟩, fun s hs => ?_⟩
  · intro argv slot called three number _ _
    have own : lineTokens scriptLine1 = some ["rs".toList, "1".toList, "f".toList] := by
      decide +kernel
    obtain rfl := Option.some.inj (own.symm.trans called.1)
    have first : atoi (["rs".toList, "1".toList, "f".toList].getD 1 []) = 1 := by decide +kernel
    rw [first] at number
    obtain rfl : (1 : Slot) = slot := Fin.ext (by exact_mod_cast number)
    exact ⟨by decide +kernel, by decide +kernel, fun id w runs => by simp [idle, Runs] at runs⟩
  · intro argv called two other opens id w runs
    simp [idle, Runs] at runs
  · have along : Along (step numberingHost) (fun e s => s.plain e = true) afterScriptLine1 s := by
      simpa [hs, Except.toOption] using searched
    exact along.guarantees (fun _ => True) (fun _ _ _ _ _ _ => trivial) (fun _ _ _ =>
      careful_of_plain) trivial

theorem handedOver_scriptLine1 : ∃ s,
    runAll (step numberingHost) (.line none scriptLine1 :: afterScriptLine1) (idle testing) = .ok s ∧
      allocates 1 s = some (1, 1, "f".toList) ∧ s.HandedOver := by
  have allocated : (runAll (step numberingHost) (.line none scriptLine1 :: afterScriptLine1)
      (idle testing)).toOption.map (allocates 1) = some (some (1, 1, "f".toList)) := by
    decide +kernel
  cases reached : runAll (step numberingHost) (.line none scriptLine1 :: afterScriptLine1)
    (idle testing) with
  | error f => simp [reached, Except.toOption] at allocated
  | ok s =>
    refine ⟨s, rfl, by simpa [reached, Except.toOption] using allocated, ?_⟩
    exact script_handed_over numberingHost testing _ scriptLine1_careful reached

/-- Two scripts are started before the first of them has run. -/
def bothScripts : List ProcessEvent :=
  [.line none "start test".toList, .line none scriptLine1, .line none "rs 2 g".toList,
    .advance 5, .advance 5]

/-- The slot of which a script thread is about to reset the count, and its own. -/
def counts (id : Tid) (s : Process) : Option (Int × Int) :=
  match s.thread id with
  | some (.script w) =>
    match w.rest with
    | .op (.setCountOfScriptRun n _) _ => some (n, w.slot)
    | _ => none
  | _ => none

/-- The thread of script 1 works on slot 2. -/
theorem bothScripts_slot : ¬ ∀ run s,
    runAll (step numberingHost) run (idle ⟨.initial, .initial fun _ => none⟩) = .ok s →
      s.HandedOver := by
  intro handed
  have wrong : (runAll (step numberingHost) bothScripts
      (idle ⟨.initial, .initial fun _ => none⟩)).toOption.map (counts 5) = some (some (2, 1)) := by
    decide +kernel
  cases reached : runAll (step numberingHost) bothScripts
    (idle ⟨.initial, .initial fun _ => none⟩) with
  | error f => simp [reached, Except.toOption] at wrong
  | ok s =>
    simp only [reached, Except.toOption, Option.map_some, Option.some.injEq, counts] at wrong
    split at wrong
    · rename_i w hthread
      split at wrong
      · rename_i n value k hrest
        have own : n = w.slot := (handed bothScripts s reached).next 5 w _ k hthread hrest
        obtain ⟨rfl, hslot⟩ := Prod.mk.inj (Option.some.inj wrong)
        simp [hslot] at own
      · cases wrong
    · cases wrong

end Sample

end Process

end AutoTest
