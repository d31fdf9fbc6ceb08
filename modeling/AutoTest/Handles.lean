import AutoTest.HandleTable
import AutoTest.Roster

/-!
# The handlers that keep the thread handles

The handles of a roster as a table, and `start`, `stop`, `quit` and `runScript`
as programs on that table between whose operations all other threads run.

* `Act`: what an operation of a handler reads from the table and does to it.
* `handler_guarded`: begun on a settled table, each of the four handlers signals
  and joins only threads it may, and leaves a settled table.
-/

namespace AutoTest

open CString Strtok Program Cmd HandleTable

/-! ## Handles and the threads they stand for -/

inductive Handle where
  | send
  | receive
  | script (slot : Slot)
  deriving DecidableEq

/-- A script thread has no work on its slot any more when it can only exit. -/
def Worker.role (w : Worker) : Option Handle :=
  if w.leaving then none else (clientIndex w.slot).map .script

def Activity.role : Activity → Option Handle
  | .send _ => some .send
  | .receive _ => some .receive
  | .script w => w.role

theorem Worker.role_working {w : Worker} (working : w.leaving = false) :
    w.role = (clientIndex w.slot).map .script := by
  simp [Worker.role, working]

theorem Cmd.Closes.working {w : Worker} (closes : w.rest.Closes w.slot false) :
    w.leaving = false := by
  unfold Worker.leaving
  split
  · rename_i hrest
    rw [hrest] at closes
    obtain ⟨_, none, -⟩ := closes
    cases none
  · rfl

abbrev Handles := Table Handle Tid

namespace Roster

def recorded (s : Shared) : Handle → Tid
  | .send => s.thrCmdSendId
  | .receive => s.thrRetReceiveId
  | .script slot => s.scripts.thrScriptId slot

def handles (s : Roster) : Handles where
  recorded := recorded s.world.shared
  role id := (s.activity id).bind Activity.role
  joinable := s.world.shared.joinable
  killed := s.killed

end Roster

/-! ## What a handler does to the handles -/

/-- Only script threads clear a handle. -/
def Handle.OfScript (h : Handle) : Prop := ∃ slot, h = .script slot

/-- The handlers that use the number in `gCmdParam[1]`, each time they read it. -/
def Func.numbered : Func → Bool
  | .runScript => true
  | .stop => true
  | _ => false

/-- An operation in the handler `f` of a line. -/
def Act (f : Func) (line : Text) : Action cmdSig Handles
  | .param i, v, t, v' => (i = 1 → f.numbered = true → atoi t = (Worker.created line).slot) ∧ v' = v
  | .getSendThreadID, v, id, v' => id = v.recorded .send ∧ v' = v
  | .getRecThreadID, v, id, v' => id = v.recorded .receive ∧ v' = v
  | .getScriptThreadID n, v, id, v' => (∃ slot : Slot, n = slot ∧ id = v.recorded (.script slot)) ∧
    v' = v
  | .setSendThreadID id, v, _, v' => v' = v.record .send id
  | .setRecThreadID id, v, _, v' => v' = v.record .receive id
  | .setScriptThreadID n id, v, _, v' => (∃ slot : Slot, n = slot ∧ v' = v.record (.script slot) id) ∨
      (∀ slot : Slot, n ≠ slot) ∧ v' = v
  | .pthreadCreate routine, v, r, v' => (r = none ∧ v' = v) ∨ ∃ id, id ≠ 0 ∧ v.role id = none ∧
      r = some id ∧ ∀ h, (Activity.created line routine).role = some h → v' = v.create h id
  | .pthreadKill id, v, _, v' => (v.role id = none ∧ v' = v) ∨ v' = v.kill id
  | .pthreadJoin id, v, _, v' => v.role id = none ∧ v.killed id = false ∧ v' = v.join id
  | _, v, _, v' => v' = v

/-- The thread whose handle an operation stores. -/
def Op.stores : Op → Option Tid
  | .setSendThreadID id => some id
  | .setRecThreadID id => some id
  | .setScriptThreadID _ id => some id
  | _ => none

/-- A signal or a join is for a thread that has been created and not joined. A
thread at work has its handle, unless this is about to be stored or it has been
sent a signal. -/
structure Op.Legal (o : Op) (v : Handles) : Prop where
  joinable : ∀ id, o = .pthreadKill id ∨ o = .pthreadJoin id → v.joinable id = true
  owned : v.OwnedBut o.stores

def handleRules (f : Func) (line : Text) : Rules cmdSig Handles :=
  ⟨Act f line, Table.Alone Handle.OfScript, Op.Legal⟩

/-! ### Operations beside the table -/

/-- Neither a write to a handle nor an operation on a thread. -/
def Op.Aside (o : Op) : Prop := o.group ∉ [.sender, .receiver, .script, .ends]

instance (o : Op) : Decidable o.Aside := inferInstanceAs (Decidable (_ ∉ _))

section Handlers

variable {f : Func} {line : Text} {v : Handles} {α : Type}

theorem script_stores {n : Int} {slot : Slot} {id : Tid} (number : n = slot)
    {v v' : Handles} {r : Unit}
    (act : Act f line (.setScriptThreadID n id) v r v') : v' = v.record (.script slot) id := by
  rcases act with ⟨other, same, rfl⟩ | ⟨outside, -⟩
  · obtain rfl : slot = other := by
      apply Fin.ext
      omega
    rfl
  · exact absurd number (outside slot)

theorem Op.Aside.apart {o : Op} (aside : o.Aside) (id : Tid) :
    ¬ (o = .pthreadKill id ∨ o = .pthreadJoin id) := by
  rintro (rfl | rfl) <;> exact absurd (by simp [Op.group]) aside

theorem Op.Aside.legal {o : Op} (aside : o.Aside) (owned : v.OwnedBut none) : o.Legal v := by
  constructor
  · exact fun id about => absurd about (aside.apart id)
  · cases o with
    | setSendThreadID | setRecThreadID | setScriptThreadID => exact absurd (by simp [Op.group]) aside
    | _ => exact owned

theorem Op.Aside.act {o : Op} (aside : o.Aside) {r : o.Res} {v v' : Handles}
    (act : Act f line o v r v') : v' = v := by
  cases o with
  | setSendThreadID | setRecThreadID | setScriptThreadID | pthreadKill | pthreadJoin =>
    exact absurd (by simp [Op.group]) aside
  | pthreadCreate routine => cases routine <;> exact absurd (by simp [Op.group]) aside
  | param | getSendThreadID | getRecThreadID | getScriptThreadID => exact act.2
  | _ => exact act

theorem Op.closes_cases {o : Op} {slot : Int} {cleared next : Bool}
    (h : o.closes slot cleared = some next) :
    o = .pthreadExit ∨ o = .setScriptThreadID slot 0 ∧ next = true ∨
      o.Aside ∧ o ≠ .pthreadExit ∧ next = false := by
  cases o with
  | pthreadExit => exact .inl rfl
  | setScriptThreadID n id =>
    obtain ⟨⟨rfl, rfl⟩, rfl⟩ : (n = slot ∧ id = 0) ∧ true = next := by simpa [Op.closes] using h
    exact .inr (.inl ⟨rfl, rfl⟩)
  | fault f =>
    obtain rfl : false = next := by simpa [Op.closes] using h
    cases f <;> exact .inr (.inr ⟨by decide, by simp, rfl⟩)
  | setSendThreadID | setRecThreadID | pthreadCreate | pthreadKill | pthreadJoin =>
    cases cleared <;> cases h
  | _ =>
    refine .inr (.inr ⟨by simp [Op.Aside, Op.group], by simp, ?_⟩)
    simp_all [Op.closes]

theorem Cmd.Touches.aside {groups : List Group} {p : Cmd α} (touches : p.Touches groups)
    (beside : ∀ g ∈ groups, g ∉ [Group.sender, .receiver, .script, .ends]) : p.Only Op.Aside :=
  Prog.Only.mono (fun _ ho => beside _ ho) touches

theorem say_aside (t : String) : (say t).Only Op.Aside :=
  Cmd.Touches.aside (@say_touches [] t) (by decide)

theorem wrongParameter_aside (cmdNum : Nat) : (wrongParameter cmdNum).Only Op.Aside :=
  Cmd.Touches.aside (@wrongParameter_touches [] cmdNum) (by decide)

theorem print_aside (t : Text) : (print t).Only Op.Aside :=
  Cmd.Touches.aside (@print_touches [] t) (by decide)

/-! ### Parts of the handlers -/

/-- What is known of handles that no thread clears. -/
def Facts (facts : List (Handle × Tid)) (v : Handles) : Prop :=
  ∀ e ∈ facts, ¬ e.1.OfScript ∧ v.recorded e.1 = e.2

variable {facts : List (Handle × Tid)} {h : Handle} {id : Tid}

theorem facts_stable : Stable (handleRules f line) (Facts facts) := by
  intro v v' known alone e he
  obtain ⟨fixed, recorded⟩ := known e he
  exact ⟨fixed, (alone.keeps fixed).trans recorded⟩

abbrev Known (facts : List (Handle × Tid)) (v : Handles) : Prop := v.Settled ∧ Facts facts v

/-- Other threads keep the assertion, under which every thread at work has its
handle. -/
structure Steady (f : Func) (line : Text) (P : Handles → Prop) : Prop where
  stable : Stable (handleRules f line) P
  owned : ∀ v, P v → v.OwnedBut none

theorem known_stable : Stable (handleRules f line) (Known facts) :=
  .and (fun _ _ => Table.Settled.alone) facts_stable

theorem known_steady : Steady f line (Known facts) :=
  ⟨known_stable, fun _ known => known.1.owned none⟩

theorem Known.less {fewer : List (Handle × Tid)} (known : Known facts v) (sub : fewer ⊆ facts) :
    Known fewer v := ⟨known.1, fun e he => known.2 e (sub he)⟩

theorem Known.recorded (known : Known facts v) (listed : (h, id) ∈ facts) : v.recorded h = id :=
  (known.2 _ listed).2

theorem Known.read (known : Known facts v) (fixed : ¬ h.OfScript) (recorded : v.recorded h = id) :
    Known ((h, id) :: facts) v := by
  refine ⟨known.1, ?_⟩
  intro e he
  rcases List.mem_cons.mp he with rfl | he
  · exact ⟨fixed, recorded⟩
  · exact known.2 e he

theorem send_fixed : ¬ Handle.send.OfScript := by
  rintro ⟨slot, same⟩
  cases same

theorem receive_fixed : ¬ Handle.receive.OfScript := by
  rintro ⟨slot, same⟩
  cases same

theorem Facts.record (known : Facts facts v) (other : ∀ e ∈ facts, e.1 ≠ h) :
    Facts facts (v.record h id) := by
  intro e he
  obtain ⟨fixed, recorded⟩ := known e he
  exact ⟨fixed, (Function.update_of_ne (other e he) _ _).trans recorded⟩

theorem aside_guarded {P : Handles → Prop} (steady : Steady f line P) {p : Cmd α}
    (aside : p.Only Op.Aside) (hP : P v) : Guarded (handleRules f line) (fun _ => P) p v := by
  apply Guarded.invariant steady.stable _ aside hP
  intro o ho v hv
  refine ⟨ho.legal (steady.owned v hv), ?_⟩
  intro r v' act
  rw [ho.act act]
  exact hv

/-- An operation that reads, or has nothing to do with handles. -/
theorem read_guarded {P : Handles → Prop} {post : α → Handles → Prop}
    (steady : Steady f line P) {o : Op} {k : o.Res → Cmd α} (aside : o.Aside)
    (next : ∀ r v, P v → Act f line o v r v → Guarded (handleRules f line) post (k r) v) (hP : P v) :
    Guarded (handleRules f line) post ((Prog.op o .pure : Cmd o.Res) >>= k) v := by
  apply Guarded.op steady.stable _ _ hP
  · intro v hv
    exact aside.legal (steady.owned v hv)
  · intro v r v' hv act
    obtain rfl := aside.act act
    exact next r v' hv act

theorem create_guarded {routine : Routine} {post : α → Handles → Prop} {k : Option Tid → Cmd α}
    (role : (Activity.created line routine).role = some h)
    (refused : ∀ v, v.Settled → Facts facts v → Guarded (handleRules f line) post (k none) v)
    (created : ∀ id v, v.Pending h id → Facts facts v →
      Guarded (handleRules f line) post (k (some id)) v)
    (settled : v.Settled) (known : Facts facts v) (empty : v.recorded h = 0) :
    Guarded (handleRules f line) post (pthreadCreate routine >>= k) v := by
  have stable : Stable (handleRules f line) fun v => Known facts v ∧ v.recorded h = 0 :=
    .and known_stable fun _ _ zero alone => alone.zero zero
  have legal (v : Handles) (known : Known facts v ∧ v.recorded h = 0) :
      (Op.pthreadCreate routine).Legal v :=
    ⟨by simp, known.1.1.owned none⟩
  apply Guarded.op (o := .pthreadCreate routine) stable legal _ ⟨⟨settled, known⟩, empty⟩
  rintro v r v' ⟨⟨settled, known⟩, empty⟩ act
  rcases act with ⟨rfl, rfl⟩ | ⟨id, nonzero, free, rfl, made⟩
  · exact refused v' settled known
  · obtain rfl := made h role
    exact created id _ ⟨settled.create empty nonzero free, .inr empty⟩ known

theorem store_guarded {post : α → Handles → Prop} {o : Op} {k : o.Res → Cmd α}
    (own : o.stores = some id) (stores : ∀ v r v', Act f line o v r v' → v' = v.record h id)
    (other : ∀ e ∈ facts, e.1 ≠ h)
    (next : ∀ r v, v.Settled → Facts facts v → Guarded (handleRules f line) post (k r) v)
    (pending : v.Pending h id) (known : Facts facts v) :
    Guarded (handleRules f line) post ((Prog.op o .pure : Cmd o.Res) >>= k) v := by
  have stable : Stable (handleRules f line) fun v => v.Pending h id ∧ Facts facts v :=
    .and (fun _ _ => Table.Pending.alone) facts_stable
  have legal (v : Handles) (pending : v.Pending h id ∧ Facts facts v) : o.Legal v := by
    refine ⟨?_, pending.1.owned (.inr own)⟩
    rintro i (rfl | rfl) <;> cases own
  apply Guarded.op stable legal _ ⟨pending, known⟩
  rintro v r v' ⟨pending, known⟩ act
  obtain rfl := stores v r v' act
  exact next r _ pending.1 (known.record other)

/-- A signal and a join leave the handle to be cleared. -/
theorem killed_guarded {post : α → Handles → Prop} {p : Cmd α}
    (next : ∀ v, v.Pending h 0 → Facts facts v → Guarded (handleRules f line) post p v)
    (held : v.Held h id) (known : Facts facts v) :
    Guarded (handleRules f line) post
      (pthreadKill id >>= fun _ => pthreadJoin id >>= fun _ => p) v := by
  have waits : Stable (handleRules f line) fun v => v.Held h id ∧ Facts facts v :=
    .and (fun _ _ => Table.Held.alone) facts_stable
  have ends : Stable (handleRules f line) fun v => v.Ending h id ∧ Facts facts v :=
    .and (fun _ _ => Table.Ending.alone) facts_stable
  have signals (v : Handles) (held : v.Held h id ∧ Facts facts v) : (Op.pthreadKill id).Legal v :=
    ⟨by simpa using held.1.joinable, held.1.owned none⟩
  have joins (v : Handles) (ending : v.Ending h id ∧ Facts facts v) : (Op.pthreadJoin id).Legal v :=
    ⟨by simpa using ending.1.joinable, ending.1.owned none⟩
  apply Guarded.op (o := .pthreadKill id) waits signals _ ⟨held, known⟩
  rintro v _ v' ⟨held, known⟩ act
  have ending : v'.Ending h id ∧ Facts facts v' := by
    rcases act with ⟨ended, rfl⟩ | rfl
    · exact ⟨held.lost ended, known⟩
    · exact ⟨held.kill, known⟩
  apply Guarded.op (o := .pthreadJoin id) ends joins _ ending
  rintro v _ v' ⟨ending, known⟩ ⟨done, unkilled, rfl⟩
  exact next _ (ending.join done unkilled) known

/-! ### The four handlers -/

theorem said_guarded (t : String) (settled : v.Settled) (known : Facts facts v) :
    Guarded (handleRules f line) (fun _ => Known facts) (say t) v :=
  aside_guarded known_steady (say_aside t) ⟨settled, known⟩

/-- What a handler ends with does not touch the table. -/
theorem last_guarded {p : Cmd α} (aside : p.Only Op.Aside) (known : Known facts v) :
    Guarded (handleRules f line) (fun _ => Known []) p v :=
  aside_guarded known_steady aside (known.less (List.nil_subset _))

theorem createRec_guarded (settled : v.Settled) (empty : v.recorded .receive = 0) :
    Guarded (handleRules f line) (fun _ => Known []) createRec v := by
  have none : Facts [] v := by simp [Facts]
  apply create_guarded (h := .receive) rfl _ _ settled none empty
  · intro v settled known
    exact said_guarded _ settled known
  · intro id v pending known
    apply store_guarded (o := .setRecThreadID id) rfl (fun _ _ _ act => act) (by simp) _
      pending known
    intro _ v settled known
    exact said_guarded _ settled known

theorem startAllRec_guarded {recId : Tid} (known : Known [(.receive, recId)] v) :
    Guarded (handleRules f line) (fun _ => Known []) (startAllRec recId) v := by
  apply Guarded.ite
  · rintro rfl
    exact createRec_guarded known.1 (known.recorded (by simp))
  · intro _
    exact said_guarded _ known.1 (by simp [Facts])

/-- The sender is started, and the rest knows the handle of the receive thread. -/
theorem startSend_guarded {recId : Tid} {p : Cmd Unit}
    (next : ∀ v, Known [(.receive, recId)] v → Guarded (handleRules f line) (fun _ => Known []) p v)
    (known : Known [(.receive, recId)] v) (empty : v.recorded .send = 0) :
    Guarded (handleRules f line) (fun _ => Known []) (startSend p) v := by
  apply create_guarded (h := .send) rfl _ _ known.1 known.2 empty
  · intro v settled _
    exact said_guarded _ settled (by simp [Facts])
  · intro id v pending facts
    apply store_guarded (o := .setSendThreadID id) rfl (fun _ _ _ act => act) (by simp) _
      pending facts
    intro _ v settled facts
    exact next v ⟨settled, facts⟩

theorem start_guarded (cmdNum : Nat) (settled : v.Settled) :
    Guarded (handleRules f line) (fun _ => Known []) (start cmdNum) v := by
  unfold start
  have nothing : Known [] v := ⟨settled, by simp [Facts]⟩
  apply read_guarded (o := .paramNum) known_steady (by decide) _ nothing
  intro gParamNum v known _
  apply Guarded.ite
  · intro _
    exact last_guarded (wrongParameter_aside cmdNum) known
  intro _
  apply read_guarded (o := .getSendThreadID) known_steady (by decide) _ known
  rintro sendId v known ⟨hsend, -⟩
  apply read_guarded (o := .getRecThreadID) known_steady (by decide) _
    (known.read send_fixed hsend.symm)
  rintro recId v known ⟨hrec, -⟩
  apply read_guarded (o := .param 1) known_steady (by decide) _ (known.read receive_fixed hrec.symm)
  intro mode v known _
  apply Guarded.ite
  · intro _
    apply Guarded.ite
    · intro _
      exact last_guarded (say_aside _) known
    · intro idle
      have recorded : v.recorded .receive = recId := known.recorded (by simp)
      exact createRec_guarded known.1 (by simp_all)
  intro _
  apply read_guarded (o := .openMsgFile) known_steady (by decide) _ known
  intro stat v known _
  apply Guarded.ite
  · intro _
    exact last_guarded (say_aside _) known
  intro _
  apply read_guarded (o := .ftok) known_steady (by decide) _ known
  intro key v known _
  apply Guarded.ite
  · intro _
    exact last_guarded (say_aside _) known
  intro _
  apply read_guarded (o := .msgget key) known_steady (by simp [Op.Aside, Op.group]) _ known
  intro id v known _
  apply Guarded.ite
  · intro _
    exact last_guarded (say_aside _) known
  intro _
  apply read_guarded (o := .gScriptParamInit) known_steady (by decide) _ known
  intro _ v known _
  apply read_guarded (o := .param 1) known_steady (by decide) _ known
  intro mode v known _
  have idle (zero : sendId = 0) : v.recorded .send = 0 := zero ▸ known.recorded (by simp)
  have rest : Known [(.receive, recId)] v := known.less (by simp)
  apply Guarded.ite
  · intro _
    apply Guarded.ite
    · intro zero
      apply startSend_guarded _ rest (idle zero)
      intro v known
      apply Guarded.bind (said_guarded _ known.1 known.2)
      intro _ v known
      exact startAllRec_guarded known
    · intro _
      apply Guarded.bind (said_guarded _ rest.1 rest.2)
      intro _ v known
      exact startAllRec_guarded known
  intro _
  apply Guarded.ite
  · intro _
    apply Guarded.ite
    · intro _
      exact last_guarded (say_aside _) known
    · intro zero
      apply startSend_guarded _ rest (idle (by simpa using zero))
      intro v known
      exact last_guarded (say_aside _) known
  · intro _
    exact last_guarded (wrongParameter_aside cmdNum) known

theorem stopped_guarded {o : Op} (said : String) (own : o.stores = some 0)
    (stores : ∀ v r v', Act f line o v r v' → v' = v.record h 0) (known : Known facts v)
    (recorded : v.recorded h = id) :
    Guarded (handleRules f line) (fun _ => Known (facts.filter (·.1 ≠ h)))
      (if id ≠ 0 then
        pthreadKill id >>= fun _ => pthreadJoin id >>= fun _ =>
          (Prog.op o .pure : Cmd o.Res) >>= fun _ => say said
      else pure ()) v := by
  have rest : Known (facts.filter (·.1 ≠ h)) v := known.less (List.filter_subset_self _)
  apply Guarded.ite
  · intro running
    have held : v.Held h id := recorded ▸ known.1.held (by simpa [recorded] using running)
    apply killed_guarded _ held rest.2
    intro v pending facts
    apply store_guarded own stores (by simp) _ pending facts
    intro _ v settled facts
    exact said_guarded said settled facts
  · intro _
    exact .pure known_stable (fun _ h => h) rest

theorem stopSend_guarded {sendId : Tid} (known : Known facts v)
    (recorded : v.recorded .send = sendId) :
    Guarded (handleRules f line) (fun _ => Known (facts.filter (·.1 ≠ .send))) (stopSend sendId) v :=
  stopped_guarded (o := .setSendThreadID 0) _ rfl (fun _ _ _ act => act) known recorded

theorem stopRec_guarded {recId : Tid} (known : Known facts v)
    (recorded : v.recorded .receive = recId) :
    Guarded (handleRules f line) (fun _ => Known (facts.filter (·.1 ≠ .receive))) (stopRec recId) v :=
  stopped_guarded (o := .setRecThreadID 0) _ rfl (fun _ _ _ act => act) known recorded

theorem stopScript_guarded (index : Nat) (known : Known [] v) :
    Guarded (handleRules f line) (fun _ => Known []) (stopScript index) v := by
  apply read_guarded (o := .getScriptThreadID index) known_steady
    (by simp [Op.Aside, Op.group]) _ known
  rintro scId v known ⟨⟨slot, hslot, rfl⟩, -⟩
  apply Guarded.ite
  · intro _
    exact .pure known_stable (fun _ h => h) known
  · intro running
    apply killed_guarded _ (known.1.held running) known.2
    intro v pending facts
    apply store_guarded (o := .setScriptThreadID index 0) (k := .pure) rfl
      (fun _ _ _ => script_stores hslot) (by simp) _ pending facts
    intro _ v settled facts
    exact .pure known_stable (fun _ h => h) ⟨settled, facts⟩

theorem each_guarded {γ : Type} {P : Handles → Prop} (stable : Stable (handleRules f line) P)
    {p : γ → Cmd Unit}
    (one : ∀ a v, P v → Guarded (handleRules f line) (fun _ => P) (p a) v) (l : List γ) (hP : P v) :
    Guarded (handleRules f line) (fun _ => P) (each l p) v := by
  induction l generalizing v with
  | nil => exact .pure stable (fun _ h => h) hP
  | cons a l ih => exact .bind (one a v hP) fun _ v hv => ih hv

theorem created_role {slot : Slot} (number : (Worker.created line).slot = slot) :
    (Activity.created line .scriptCmdProcess).role = some (.script slot) := by
  have working : (Worker.created line).leaving = false := rfl
  simp [Activity.created, Activity.role, Worker.role, working, number]

theorem stop_guarded (cmdNum : Nat) (settled : v.Settled) :
    Guarded (handleRules .stop line) (fun _ => Known []) (stop cmdNum) v := by
  unfold stop
  have nothing : Known [] v := ⟨settled, by simp [Facts]⟩
  apply read_guarded (o := .getSendThreadID) known_steady (by decide) _ nothing
  rintro sendId v known ⟨hsend, -⟩
  apply read_guarded (o := .getRecThreadID) known_steady (by decide) _
    (known.read send_fixed hsend.symm)
  rintro recId v known ⟨hrec, -⟩
  apply read_guarded (o := .paramNum) known_steady (by decide) _ (known.read receive_fixed hrec.symm)
  intro gParamNum v known _
  apply Guarded.ite
  · intro _
    exact last_guarded (wrongParameter_aside cmdNum) known
  intro _
  apply read_guarded (o := .param 1) known_steady (by decide) _ known
  intro mode v known _
  have sending : v.recorded .send = sendId := known.recorded (by simp)
  have receiving : v.recorded .receive = recId := known.recorded (by simp)
  apply Guarded.ite
  · intro _
    apply Guarded.bind (stopSend_guarded known sending)
    intro _ v known
    apply Guarded.bind (stopRec_guarded known (known.recorded (by simp)))
    intro _ v known
    apply Guarded.bind
      (each_guarded known_stable (fun index v known => stopScript_guarded index known) _
      (known.less (by simp)))
    intro _ v known
    apply read_guarded (o := .gScriptParamInit) known_steady (by decide) _ known
    intro _ v known _
    exact last_guarded (say_aside _) known
  intro _
  apply Guarded.ite
  · intro _
    apply (stopSend_guarded known sending).mono
    intro _ v known
    exact known.less (by simp)
  intro _
  apply Guarded.ite
  · intro _
    apply (stopRec_guarded known receiving).mono
    intro _ v known
    exact known.less (by simp)
  intro _
  apply read_guarded (o := .param 2) known_steady (by decide) _ known
  intro word v known _
  apply Guarded.ite
  · intro _
    apply read_guarded (o := .param 1) known_steady (by decide) _ known
    rintro number v known ⟨own, -⟩
    apply Guarded.ite
    · intro _
      exact last_guarded (say_aside _) known
    intro _
    apply read_guarded (o := .getScriptThreadID (atoi number)) known_steady
      (by simp [Op.Aside, Op.group]) _ known
    rintro scId v known ⟨⟨slot, hslot, rfl⟩, -⟩
    apply Guarded.ite
    · intro _
      exact .pure known_stable (fun _ h => h) (known.less (by simp))
    intro running
    have none : Facts [] v := by simp [Facts]
    apply killed_guarded _ (known.1.held running) none
    intro v pending none
    have waits : Steady .stop line fun v => v.Pending (.script slot) 0 ∧ Facts [] v :=
      ⟨.and (fun _ _ => Table.Pending.alone) facts_stable, fun _ waiting =>
        waiting.1.owned (.inl rfl)⟩
    apply read_guarded (o := .param 1) waits (by decide) _ ⟨pending, none⟩
    rintro again v ⟨pending, none⟩ ⟨own', -⟩
    have same : atoi again = slot := (own' rfl rfl).trans ((own rfl rfl).symm.trans hslot)
    apply store_guarded (o := .setScriptThreadID (atoi again) 0) rfl
      (fun _ _ _ => script_stores same) (by simp) _ pending none
    intro _ v settled none
    apply read_guarded (o := .param 1) known_steady (by decide) _ ⟨settled, none⟩
    intro text v known _
    exact last_guarded (print_aside _) known
  · intro _
    exact last_guarded (wrongParameter_aside cmdNum) known

theorem runScript_guarded (cmdNum : Nat) (settled : v.Settled) :
    Guarded (handleRules .runScript line) (fun _ => Known []) (runScript cmdNum) v := by
  unfold runScript
  have nothing : Known [] v := ⟨settled, by simp [Facts]⟩
  apply read_guarded (o := .getSendThreadID) known_steady (by decide) _ nothing
  intro sendId v known _
  apply Guarded.ite
  · intro _
    exact last_guarded (say_aside _) known
  intro _
  apply read_guarded (o := .paramNum) known_steady (by decide) _ known
  intro gParamNum v known _
  apply Guarded.ite
  · intro _
    exact last_guarded (wrongParameter_aside cmdNum) known
  intro _
  apply read_guarded (o := .param 1) known_steady (by decide) _ known
  rintro number v known ⟨own, -⟩
  apply Guarded.ite
  · intro _
    exact last_guarded (wrongParameter_aside cmdNum) known
  intro _
  apply read_guarded (o := .getScriptThreadID (atoi number)) known_steady
    (by simp [Op.Aside, Op.group]) _ known
  rintro scId v known ⟨⟨slot, hslot, rfl⟩, -⟩
  apply Guarded.ite
  · intro _
    exact last_guarded (say_aside _) known
  intro idle
  have free : Steady .runScript line fun v => Known [] v ∧ v.recorded (.script slot) = 0 :=
    ⟨.and known_stable fun _ _ zero alone => alone.zero zero, fun _ unused => unused.1.1.owned none⟩
  have empty : v.recorded (.script slot) = 0 := by simpa using idle
  have role : (Activity.created line .scriptCmdProcess).role = some (.script slot) :=
    created_role ((own rfl rfl).symm.trans hslot)
  apply read_guarded (o := .param 2) free (by decide) _ ⟨known, empty⟩
  intro file v unused _
  have named : (Cmd.snprintf maxFileName file).Only Op.Aside :=
    Cmd.Touches.aside (@snprintf_touches [] _ _) (by decide)
  apply Guarded.bind (aside_guarded free named unused)
  intro name v unused
  apply read_guarded (o := .setScriptName (atoi number) name) free
    (by simp [Op.Aside, Op.group]) _ unused
  rintro _ v ⟨known, empty⟩ _
  apply create_guarded (h := .script slot) role _ _ known.1 known.2 empty
  · intro v settled none
    exact last_guarded (say_aside _) ⟨settled, none⟩
  · intro id v pending none
    apply store_guarded (o := .setScriptThreadID (atoi number) id) (k := .pure) rfl
      (fun _ _ _ => script_stores hslot) (by simp) _ pending none
    intro _ v settled none
    exact .pure known_stable (fun _ h => h) ⟨settled, none⟩

/-- Nothing is stopped where no thread is recorded. -/
theorem quit_guarded (cmdNum : Nat) (settled : v.Settled) (send : v.recorded .send = 0)
    (receive : v.recorded .receive = 0) :
    Guarded (handleRules f line) (fun _ => Known []) (quit cmdNum) v := by
  have none : Facts [] v := by simp [Facts]
  have nothing : Known [] v := ⟨settled, none⟩
  have known : Known [(.receive, 0), (.send, 0)] v :=
    (nothing.read send_fixed send).read receive_fixed receive
  unfold quit
  apply read_guarded (o := .getSendThreadID) known_steady (by decide) _ known
  rintro sendId v known ⟨hsend, -⟩
  obtain rfl : sendId = 0 := hsend.trans (known.recorded (by simp))
  apply read_guarded (o := .getRecThreadID) known_steady (by decide) _ known
  rintro recId v known ⟨hrec, -⟩
  obtain rfl : recId = 0 := hrec.trans (known.recorded (by simp))
  show Guarded (handleRules f line) (fun _ => Known []) quitNote v
  exact aside_guarded known_steady (Cmd.Touches.aside quitNote_touches (by decide))
    (known.less (by simp))

/-- Each of the four handlers, begun where the handles are settled. -/
theorem handler_guarded {f : Func} (threads : f.threads = true) (cmdNum : Nat) (settled : v.Settled)
    (idle : f = .quit → v.recorded .send = 0 ∧ v.recorded .receive = 0) :
    Guarded (handleRules f line) (fun _ v => v.Settled) (f.run cmdNum) v := by
  have known : Guarded (handleRules f line) (fun _ => Known []) (f.run cmdNum) v := by
    cases f with
    | start => exact start_guarded cmdNum settled
    | stop => exact stop_guarded cmdNum settled
    | runScript => exact runScript_guarded cmdNum settled
    | quit => exact quit_guarded cmdNum settled (idle rfl).1 (idle rfl).2
    | _ => cases threads
  exact known.mono fun _ _ known => known.1

end Handlers

end AutoTest
