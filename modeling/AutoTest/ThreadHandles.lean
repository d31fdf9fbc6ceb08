import AutoTest.Staff

/-!
# Thread handles over a run

* `Sound`: between the four handlers a handle is recorded exactly while its
  thread is there, and what is signalled or joined can be.
* `Meets`: the handlers follow one another, threads read their own numbers, no
  script is done before its handle is stored, and its `loop` lines have a count.
* `thread_handles`: a run whose steps meet the condition is sound throughout.
* `quit_stop_unsound`: `quit` keeps the handles of the threads it has joined.
-/

namespace AutoTest

open CString Strtok Program Cmd HandleTable

/-! ## The property and the condition -/

/-- A handler that creates threads or ends them. -/
def Call.manages : Call → Bool
  | .entered _ => false
  | .handler _ name _ _ => (commandFunc name).elim false Func.threads

namespace Roster

/-- No handler of `start`, `stop`, `quit` or `runScript` is in progress. -/
def Quiet (s : Roster) : Prop := ∀ self, ∀ c ∈ s.calls self, c.manages = false

/-- Outside of those handlers a handle is recorded exactly while its thread is
there. Signals and joins are always for threads created and not yet joined. -/
structure Sound (s : Roster) : Prop where
  send : s.Quiet → (s.world.shared.thrCmdSendId ≠ 0 ↔ ∃ id stage, s.activity id = some (.send stage))
  receive : s.Quiet →
    (s.world.shared.thrRetReceiveId ≠ 0 ↔ ∃ id stage, s.activity id = some (.receive stage))
  script : s.Quiet → ∀ slot : Slot, (s.world.shared.scripts.thrScriptId slot ≠ 0 ↔
    ∃ id w, s.activity id = some (.script w) ∧ w.slot = slot ∧ w.leaving = false)
  joinable : ∀ self id, s.next self = some (.pthreadKill id) ∨ s.next self = some (.pthreadJoin id) →
    s.world.shared.joinable id = true

/-- The number that the last line gives as its first argument, none if a list
of keys has been tokenised since. -/
def number (s : Roster) : Option Int := s.last.bind argNumber

/-- The handler that has created the thread is not about to store its handle. -/
def Stored (s : Roster) (id : Tid) : Prop :=
  ∀ self, ∀ c ∈ s.calls self, ∀ o, c.next = some o → o.stores ≠ some id

/-- A script thread reads its number right after a line with that number. As
long as no signal has been sent to it, the `loop` lines that it reads have a
count, and its handle is stored before it clears the handle of its slot. -/
def ScriptMeets (s : Roster) (id : Tid) (w : Worker) : Prop :=
  match w.rest with
  | .op (.param 1) _ => s.number = some w.slot
  | .op (.setScriptThreadID _ _) _ => s.killed id = true ∨ s.Stored id
  | _ => s.killed id = true ∨ w.rest.NextLine s.world.shared.scripts LoopCounted

/-- A handler of the four is begun when none is in progress, and that of `quit`
when neither sender nor receiver is recorded. The number in a line is read with
no other line tokenised in between. No handler stops its own thread. -/
def CallMeets (s : Roster) (self : Option Tid) : Call → Prop
  | .entered _ =>
    ∀ name f, s.world.params.param 0 = .ok name → commandFunc name = some f → f.threads = true →
      s.Quiet ∧ (f = .quit → s.world.shared.thrCmdSendId = 0 ∧ s.world.shared.thrRetReceiveId = 0)
  | .handler line name _ rest =>
    match rest with
    | .op (.param 1) _ =>
      ∀ f, commandFunc name = some f → f.numbered = true → s.number = some (Worker.created line).slot
    | .op (.pthreadKill id) _ => self ≠ some id
    | _ => True

def Meets (s : Roster) : RosterEvent → Prop
  | .step self =>
    match s.calls self, self with
    | c :: _, self => s.CallMeets self c
    | [], none => True
    | [], some id =>
      match s.activity id with
      | some (.script w) => s.ScriptMeets id w
      | _ => True
  -- `syslogServerInit` fails only in a thread that is being stopped
  | .fail id => s.killed id = true
  | _ => True

/-! ## The invariant -/

def managers (s : Roster) : Option Tid → List Call := fun self => (s.calls self).filter Call.manages

/-- The four handlers follow one another, and the one in progress is left with
a program that ends with settled handles. -/
inductive Phase (s : Roster) : Prop
  | quiet (idle : s.managers = fun _ => []) (settled : s.handles.Settled)
  | busy {self : Option Tid} {line name : Text} {ipAddr : Option Pointer} {f : Func} {rest : Cmd Unit}
      (named : commandFunc name = some f) (threads : f.threads = true)
      (only : s.managers = Function.update (fun _ => []) self [.handler line name ipAddr rest])
      (unkilled : ∀ id, self = some id → s.killed id = false)
      (guarded : Guarded (handleRules f line) (fun _ v => v.Settled) rest s.handles)

structure Inv (s : Roster) : Prop where
  staff : s.Staff
  tokens : s.Tokens
  calls : ∀ self, ∀ c ∈ s.calls self, c.manages = false → c.Orderly
  phase : s.Phase

/-! ## Steps beside the handlers -/

section Beside

variable {host : Host} {s t : Roster} {id : Tid} {self : Option Tid}

theorem quiet_iff : s.Quiet ↔ s.managers = fun _ => [] := by
  constructor
  · intro quiet
    funext self
    exact List.filter_eq_nil_iff.mpr fun c hc => by simp [quiet self c hc]
  · intro none self c hc
    simpa using List.filter_eq_nil_iff.mp (congrFun none self) c hc

theorem Phase.alone (phase : s.Phase)
    (handles : t.handles = s.handles ∨ Table.Alone Handle.OfScript s.handles t.handles)
    (managers : t.managers = s.managers) (killed : ∀ id, s.killed id = false → t.killed id = false) :
    t.Phase := by
  cases phase with
  | quiet idle settled =>
    refine .quiet (managers.trans idle) ?_
    rcases handles with same | alone
    · rw [same]
      exact settled
    · exact settled.alone alone
  | busy named threads only unkilled guarded =>
    refine .busy named threads (managers.trans only) (fun id own => killed id (unkilled id own)) ?_
    rcases handles with same | alone
    · rw [same]
      exact guarded
    · exact guarded.rely alone

/-- A thread at work has its handle once that is stored, or is to end. -/
theorem Phase.owner (phase : s.Phase) {h : Handle} (role : s.handles.role id = some h)
    (stored : s.Stored id) : s.killed id = true ∨ s.handles.recorded h = id := by
  cases phase with
  | quiet idle settled => exact settled.owned none id h role (by simp)
  | @busy self line name ipAddr f rest named threads only unkilled guarded =>
    have listed : .handler line name ipAddr rest ∈ s.calls self := by
      have own : .handler line name ipAddr rest ∈ s.managers self := by simp [only]
      exact List.mem_of_mem_filter own
    cases rest with
    | pure a => exact guarded.done.owned none id h role (by simp)
    | op o k => exact guarded.legal.owned id h role fun same => stored self _ listed o rfl same.symm

theorem Phase.free (phase : s.Phase) (killed : s.killed id = true) : s.managers (some id) = [] := by
  cases phase with
  | quiet idle => rw [idle]
  | @busy self _ _ _ _ _ _ _ only unkilled =>
    have other : some id ≠ self := by
      rintro rfl
      cases killed.symm.trans (unkilled id rfl)
    rw [only, Function.update_of_ne other]

theorem Inv.beside (inv : s.Inv) (beside : Beside s t) (tokens : t.Tokens) : t.Inv := by
  have ⟨activity, killed, calls, _, _⟩ := beside
  refine ⟨beside.staff inv.staff, tokens, ?_, ?_⟩
  · rw [calls]
    exact inv.calls
  · apply inv.phase.alone (.inl beside.handles)
    · unfold managers
      rw [calls]
    · simp [killed]

theorem Inv.setActivity (inv : s.Inv) {a b : Activity} (busy : s.activity id = some a)
    (alone : b.role = a.role ∨
      Table.Alone Handle.OfScript s.handles
        { s.handles with role := Function.update s.handles.role id b.role })
    (orderly : b.Orderly (s.killed id)) : (s.setActivity id b).Inv := by
  refine ⟨inv.staff.setActivity (inv.staff.alive id a busy) orderly, inv.tokens, inv.calls, ?_⟩
  refine inv.phase.alone ?_ rfl fun _ h => h
  rw [handles_setActivity]
  apply alone.imp_left
  intro role
  have same : Function.update s.handles.role id b.role = s.handles.role := by
    rw [role, Function.update_eq_self_iff]
    simp [handles, busy]
  rw [same]

theorem managers_setCalls (self : Option Tid) (calls : List Call) :
    (s.setCalls self calls).managers = Function.update s.managers self
      (calls.filter Call.manages) := by
  funext j
  by_cases same : j = self
  · subst same
    simp [managers, setCalls]
  · simp [managers, setCalls, same]

theorem Inv.endThread (inv : s.Inv) (free : s.managers (some id) = [])
    (alone : s.handles.gone id = s.handles ∨ s.killed id = true) : (s.endThread id).Inv := by
  refine ⟨inv.staff.endThread id, inv.tokens, ?_, ?_⟩
  · intro self c hc
    by_cases same : self = some id
    · subst same
      simp [Roster.endThread] at hc
    · exact inv.calls self c (by simpa [Roster.endThread, same] using hc)
  · apply inv.phase.alone
    · rw [handles_endThread]
      exact alone.imp_right fun killed => .ended killed
    · have none : (s.endThread id).managers = Function.update s.managers (some id) [] :=
        managers_setCalls (s := s) (some id) []
      rw [none, Function.update_eq_self_iff]
      exact free.symm
    · intro i unkilled
      by_cases same : i = id
      · subst same
        exact Function.update_self ..
      · exact (Function.update_of_ne same _ _).trans unkilled

theorem enter_inv (inv : s.Inv) {line : Text} (h : s.enter self line = .ok t) : t.Inv := by
  unfold enter at h
  split at h
  · rename_i loaded
    cases h
    refine ⟨⟨inv.staff.alive, inv.staff.ended, inv.staff.orderly⟩, Params.load_holds loaded, ?_, ?_⟩
    · intro j c hc
      by_cases same : j = self
      · subst same
        rcases List.mem_cons.mp (by simpa [setCalls] using hc) with rfl | hc
        · exact fun _ => trivial
        · exact inv.calls j c hc
      · exact inv.calls j c (by simpa [setCalls, same] using hc)
    · refine inv.phase.alone (.inl rfl) ?_ fun _ h => h
      rw [managers_setCalls]
      exact Function.update_eq_self_iff.mpr rfl
  · cases h

/-! ### Script threads -/

/-- A step of a script thread that leaves its handle alone. -/
theorem aside_script {w w' : Worker} {o : Op} {r : o.Res} {line : Text} (inv : s.Inv)
    (busy : s.activity id = some (.script w)) (aside : o.Aside) (working : w.leaving = false)
    (slot : w'.slot = w.slot) (next : w'.leaving = false)
    (orderly : (Activity.script w').Orderly (s.killed id))
    (h : operate host line none o s = .ok (r, t)) : (t.setActivity id (.script w')).Inv := by
  have beside := operate_beside aside h
  have same : t.activity id = some (.script w) := by rw [beside.1, busy]
  have role : w'.role = w.role := by rw [Worker.role_working next, Worker.role_working working, slot]
  have sent : t.killed id = s.killed id := congrFun beside.2.1 id
  exact (inv.beside beside (operate_tokens inv.tokens h)).setActivity (b := .script w')
    same (.inl role)
    (sent ▸ orderly)

/-- A script thread clears its handle. -/
theorem clear_script {w w' : Worker} {line : Text} {r : Unit} (inv : s.Inv)
    (busy : s.activity id = some (.script w)) (working : w.leaving = false) (slot : w'.slot = w.slot)
    (orderly : (Activity.script w').Orderly (s.killed id))
    (owner : s.killed id = true ∨ s.Stored id ∧ w'.leaving = true)
    (h : operate host line none (.setScriptThreadID w.slot 0) s = .ok (r, t)) :
    (t.setActivity id (.script w')).Inv := by
  obtain ⟨act, staff, calls, unkilled⟩ := store_moves (f := .stop) inv.staff h
  have role : s.handles.role id = (clientIndex w.slot).map .script := by
    simp [handles, busy, Activity.role, Worker.role, working]
  have handles : (t.setActivity id (.script w')).handles = s.handles ∨
      Table.Alone Handle.OfScript s.handles (t.setActivity id (.script w')).handles := by
    rw [handles_setActivity]
    rcases act with ⟨slot', number, store⟩ | ⟨outside, same⟩
    · have mine : s.handles.role id = some (.script slot') := by simp [role, number]
      rw [store]
      cases leaving : w'.leaving with
      | true =>
        have done : (Activity.script w').role = none := by simp [Activity.role, Worker.role, leaving]
        rw [done]
        refine .inr (.finished ⟨slot', rfl⟩ mine ?_)
        rcases owner with sent | ⟨stored, -⟩
        · exact .inl sent
        · exact inv.phase.owner mine stored
      | false =>
        have killed : s.killed id = true := owner.resolve_right fun own => by simp [leaving] at own
        have stays : (Activity.script w').role = s.handles.role id :=
          (Worker.role_working leaving).trans (by rw [slot, role])
        have kept : Function.update s.handles.role id (s.handles.role id) = s.handles.role := by simp
        rw [stays]
        simp only [Table.record, kept]
        exact .inr (.cleared ⟨slot', rfl⟩ mine killed)
    · have none : clientIndex w.slot = none := by
        cases index : clientIndex w.slot with
        | none => rfl
        | some i => exact absurd (clientIndex_some index) (outside i)
      have done : (Activity.script w').role = s.handles.role id := by
        simp [Activity.role, Worker.role, role, slot, none]
      have kept : Function.update s.handles.role id (s.handles.role id) = s.handles.role := by simp
      rw [same, done, kept]
      exact .inl rfl
  have joinable : t.world.shared.joinable = s.world.shared.joinable := by
    rcases act with ⟨_, -, store⟩ | ⟨-, same⟩
    · exact congrArg Table.joinable store
    · exact congrArg Table.joinable same
  have alive : t.world.shared.joinable id = true := by
    rw [joinable]
    exact inv.staff.alive id _ busy
  have sent : t.killed = s.killed := by
    obtain ⟨v, -, rfl⟩ := perform_ok (o := .setScriptThreadID w.slot 0) h
    rfl
  have staffed := staff.setActivity alive (a := .script w') (sent ▸ orderly)
  have tokens : t.Tokens := operate_tokens inv.tokens h
  refine ⟨staffed, tokens, ?_, inv.phase.alone handles ?_ fun i => unkilled i (by simp)⟩
  · intro self c hc
    exact inv.calls self c (calls ▸ hc)
  · show (fun self => (t.calls self).filter Call.manages) = s.managers
    rw [calls]
    rfl

theorem ScriptMeets.counted {w : Worker} (meets : s.ScriptMeets id w) :
    s.killed id = true ∨ w.rest.NextLine s.world.shared.scripts LoopCounted := by
  unfold ScriptMeets at meets
  split at meets
  · rename_i hrest
    rw [hrest]
    exact .inr (nextLine_of_other (by simp))
  · rename_i hrest
    rw [hrest]
    exact .inr (nextLine_of_other (by simp))
  · exact meets

theorem script_inv {w : Worker} (inv : s.Inv) (busy : s.activity id = some (.script w))
    (alone : s.calls (some id) = []) (meets : s.ScriptMeets id w)
    (h : s.advanceScript host id w = .ok t) : t.Inv := by
  obtain ⟨orderly, last⟩ : w.AtWork ∧ (s.killed id = true ∨ w.rest.ClearsLast) :=
    inv.staff.orderly id _ busy
  -- a thread without a signal goes on to clear its handle last
  have goes {o : Op} {k : o.Res → Cmd Unit} {r : o.Res} {u : Roster} (hrest : w.rest = .op o k)
      (hstep : operate host [] none o s = .ok (r, u)) :
      s.killed id = true ∨ (k r).ClearsLast ∧ (o.KeepsHandles ∨ k r = pthreadExit) := by
    rcases last with killed | last
    · exact .inl killed
    rcases meets.counted with killed | counted
    · exact .inl killed
    rw [hrest] at last counted
    exact .inr (clearsLast_next last counted hstep)
  unfold ScriptMeets at meets
  rcases orderly with first | second | ⟨cleared, closes⟩
  · obtain ⟨r, u, hstep, rfl⟩ := advanceScript_op first (by simp) (by simp) h
    have working : w.leaving = false := by rw [Worker.leaving, first]; rfl
    have still := (goes first hstep).imp_right And.left
    exact aside_script inv busy (by decide) working rfl rfl ⟨.inr (.inl rfl), still⟩ hstep
  · obtain ⟨r, u, hstep, rfl⟩ := advanceScript_op (o := .param 1) second (by simp) (by simp) h
    rw [second] at meets
    obtain ⟨t, read, number⟩ := Params.Holds.number inv.tokens meets
    have own : atoi r = w.slot := by
      cases read.symm.trans (operate_param hstep)
      exact number
    have next : (scriptBody (atoi r)).Closes w.slot false := own ▸ scriptBody_closes
    have working : w.leaving = false := by rw [Worker.leaving, second]; rfl
    have still := (goes second hstep).imp_right And.left
    exact aside_script inv busy (by decide) working rfl rfl ⟨.inr (.inr ⟨false, next⟩), still⟩ hstep
  · cases hrest : w.rest with
    | pure a => simp [advanceScript, hrest] at h
    | op o k =>
      rw [hrest] at closes meets
      obtain ⟨next, ho, rest⟩ := closes
      rcases Op.closes_cases ho with rfl | ⟨rfl, rfl⟩ | ⟨aside, stays, rfl⟩
      · have leaving : w.leaving = true := by rw [Worker.leaving, hrest]
        obtain rfl : s.endThread id = t := by simpa [advanceScript, hrest] using h
        apply inv.endThread (by simp [managers, alone])
        cases killed : s.killed id with
        | true => exact .inr rfl
        | false =>
          have done : s.handles.role id = none := by
            simp [handles, busy, Activity.role, Worker.role, leaving]
          exact .inl (Table.gone_self done killed)
      · have working : w.leaving = false := by rw [Worker.leaving, hrest]
        obtain ⟨r, u, hstep, rfl⟩ := advanceScript_op hrest (by simp) (by simp) h
        have still := goes hrest hstep
        have orderly : (Activity.script (w.moved (.setScriptThreadID w.slot 0) (k r))).Orderly
            (s.killed id) :=
          ⟨.inr (.inr ⟨true, rest r⟩), still.imp_right And.left⟩
        refine clear_script inv busy working rfl orderly ?_ hstep
        rcases meets with killed | stored
        · exact .inl killed
        · refine still.imp_right fun still => ⟨stored, ?_⟩
          have exits : k r = pthreadExit := still.2.resolve_left fun keeps => keeps
          simp only [Worker.leaving, Worker.moved, exits]
          rfl
      · have working : w.leaving = false := by
          unfold Worker.leaving
          rw [hrest]
          cases o <;> first | rfl | exact absurd rfl stays
        by_cases called : ∃ line, o = .call line
        · obtain ⟨line, rfl⟩ := called
          have next : Cmd.Closes w.slot false (k ()) := rest ()
          have still := (goes hrest (u := s) rfl).imp_right And.left
          simp only [advanceScript, hrest] at h
          apply enter_inv _ h
          apply inv.setActivity busy (.inl _)
          · exact ⟨.inr (.inr ⟨false, next⟩), still⟩
          · exact (Worker.role_working (Cmd.Closes.working next)).trans
              (Worker.role_working working).symm
        · have noCall : ∀ line, o ≠ .call line := fun line same => called ⟨line, same⟩
          obtain ⟨r, u, hstep, rfl⟩ := advanceScript_op hrest stays noCall h
          have next : Cmd.Closes w.slot false (k r) := rest r
          have still := (goes hrest hstep).imp_right And.left
          refine aside_script inv busy aside working rfl ?_ ⟨.inr (.inr ⟨false, next⟩), still⟩ hstep
          exact Cmd.Closes.working next

/-! ### Handlers -/

/-- The handler of the four that is in progress. -/
theorem Phase.manager (phase : s.Phase) {line name : Text} {rest : Cmd Unit} {callers : List Call}
    (stack : s.calls self = .handler line name ipAddr rest :: callers)
    (manages : (Call.handler line name ipAddr rest).manages = true) :
    ∃ f, commandFunc name = some f ∧ f.threads = true ∧ callers.filter Call.manages = [] ∧
      s.managers = Function.update (fun _ => []) self [.handler line name ipAddr rest] ∧
      (∀ id, self = some id → s.killed id = false) ∧
      Guarded (handleRules f line) (fun _ v => v.Settled) rest s.handles := by
  have top : s.managers self = .handler line name ipAddr rest :: callers.filter Call.manages := by
    simp [Roster.managers, stack, manages]
  cases phase with
  | quiet idle => simp [idle] at top
  | @busy self' line' name' ipAddr' f rest' named threads only unkilled guarded =>
    have same : self = self' := by
      by_contra other
      rw [only, Function.update_of_ne other] at top
      cases top
    subst same
    rw [only, Function.update_self] at top
    obtain ⟨⟨rfl, rfl, rfl, rfl⟩, others⟩ : (line' = line ∧ name' = name ∧
      ipAddr' = ipAddr ∧ rest' = rest) ∧
        [] = callers.filter Call.manages := by simpa using top
    exact ⟨f, named, threads, others.symm, only, unkilled, guarded⟩

theorem Inv.setCalls_calls (inv : s.Inv) {calls : List Call}
    (mine : ∀ c ∈ calls, c.manages = false → c.Orderly) :
    ∀ j, ∀ c ∈ (s.setCalls self calls).calls j, c.manages = false → c.Orderly := by
  intro j c hc
  by_cases same : j = self
  · subst same
    exact mine c (by simpa [setCalls] using hc)
  · exact inv.calls j c (by simpa [setCalls, same] using hc)

/-- One operation of a handler. -/
theorem handler_inv {line name : Text} {o : Op} {k : o.Res → Cmd Unit} {r : o.Res}
    {callers : List Call}
    (inv : s.Inv) (stack : s.calls self = .handler line name ipAddr (.op o k) :: callers)
    (staff : t.Staff) (tokens : t.Tokens) (calls : t.calls = s.calls)
    (acts : ∀ f, commandFunc name = some f → f.threads = true → Act f line o s.handles r t.handles ∧
      ∀ id, self = some id → s.killed id = false → t.killed id = false)
    (beside : (Call.handler line name ipAddr (.op o k)).manages = false → Beside s t) :
    (t.setCalls self (.handler line name ipAddr' (k r) :: callers)).Inv := by
  have managers : (t.setCalls self (.handler line name ipAddr' (k r) :: callers)).managers =
      Function.update s.managers self ((Call.handler line name ipAddr' (k r) :: callers).filter
        Call.manages) := by
    rw [managers_setCalls]
    unfold Roster.managers
    rw [calls]
  refine ⟨⟨staff.alive, staff.ended, staff.orderly⟩, tokens, ?_, ?_⟩
  · intro j c hc
    by_cases same : j = self
    · subst same
      rcases List.mem_cons.mp (by simpa [setCalls] using hc) with rfl | hc
      · intro idle
        have orderly : (Call.handler line name ipAddr (.op o k)).Orderly :=
          inv.calls j _ (by simp [stack]) idle
        exact orderly.2 r
      · exact inv.calls j c (by simp [stack, hc])
    · exact inv.calls j c (by simpa [setCalls, same, calls] using hc)
  · cases manages : (Call.handler line name ipAddr (.op o k)).manages with
    | true =>
      obtain ⟨f, named, threads, others, only, unkilled, guarded⟩ := inv.phase.manager stack manages
      obtain ⟨act, killed⟩ := acts f named threads
      have manages' : (Call.handler line name ipAddr' (k r)).manages = true := manages
      have only' : (t.setCalls self (.handler line name ipAddr' (k r) :: callers)).managers =
          Function.update (fun _ => []) self [.handler line name ipAddr' (k r)] := by
        rw [managers, only, Function.update_idem, List.filter_cons_of_pos manages', others]
      exact .busy named threads only' (fun id own => killed id own (unkilled id own))
        (guarded.act act)
    | false =>
      have idle : (Call.handler line name ipAddr' (k r)).manages = false := manages
      have aside := beside manages
      refine inv.phase.alone (.inl aside.handles) ?_ ?_
      · rw [managers, Function.update_eq_self_iff]
        simp [Roster.managers, stack, manages, idle]
      · intro id unkilled
        exact (congrFun aside.2.1 id).trans unkilled

theorem Phase.settled (phase : s.Phase) (quiet : s.Quiet) : s.handles.Settled := by
  cases phase with
  | quiet _ settled => exact settled
  | @busy self _ _ _ _ _ _ _ only =>
    have none := congrFun (quiet_iff.mp quiet) self
    rw [only, Function.update_self] at none
    cases none

theorem dispatch_named {name : Text} {f : Func} (named : commandFunc name = some f) :
    ∃ cmdNum, dispatch name = f.run cmdNum := by
  unfold commandFunc at named
  cases code : getCmdCode name with
  | none => simp [code] at named
  | some cmdNum =>
    obtain rfl : (cmdEntry cmdNum).func = f := by simpa [code] using named
    exact ⟨cmdNum, by simp only [dispatch, code]⟩

theorem dispatch_aside {line name : Text}
    (idle : (Call.handler line name none (dispatch name)).manages = false) :
    (dispatch name).Only Op.Aside := by
  cases named : commandFunc name with
  | none =>
    have code : getCmdCode name = none := by simpa [commandFunc] using named
    simp only [dispatch, code]
    exact say_aside _
  | some f =>
    obtain ⟨cmdNum, run⟩ := dispatch_named named
    have threads : f.threads = false := by simpa [Call.manages, named] using idle
    rw [run]
    apply Cmd.Touches.aside (f.run_touches cmdNum)
    cases f <;> first | decide | cases threads

/-- The name of a line chooses the handler. -/
theorem entered_inv {line name : Text} {callers : List Call} (inv : s.Inv)
    (stack : s.calls self = .entered line :: callers)
    (meets : ∀ f, commandFunc name = some f → f.threads = true →
      s.Quiet ∧ (f = .quit → s.world.shared.thrCmdSendId = 0 ∧ s.world.shared.thrRetReceiveId = 0)) :
    (s.setCalls self (.handler line name none (dispatch name) :: callers)).Inv := by
  refine ⟨⟨inv.staff.alive, inv.staff.ended, inv.staff.orderly⟩, inv.tokens,
    inv.setCalls_calls ?_, ?_⟩
  · intro c hc
    rcases List.mem_cons.mp hc with rfl | hc
    · exact dispatch_aside
    · exact inv.calls self c (by simp [stack, hc])
  cases manages : (Call.handler line name none (dispatch name)).manages with
  | true =>
    cases named : commandFunc name with
    | none => simp [Call.manages, named] at manages
    | some f =>
      have threads : f.threads = true := by simpa [Call.manages, named] using manages
      obtain ⟨quiet, quits⟩ := meets f named threads
      obtain ⟨cmdNum, run⟩ := dispatch_named named
      have settled := inv.phase.settled quiet
      have others : callers.filter Call.manages = [] := by
        have none := congrFun (quiet_iff.mp quiet) self
        simpa [managers, stack, Call.manages] using none
      have only : (s.setCalls self (.handler line name none (dispatch name) :: callers)).managers =
          Function.update (fun _ => []) self [.handler line name none (dispatch name)] := by
        rw [managers_setCalls, quiet_iff.mp quiet, List.filter_cons_of_pos manages, others]
      have guarded : Guarded (handleRules f line) (fun _ v => v.Settled)
          (dispatch name) s.handles := by
        rw [run]
        exact handler_guarded threads cmdNum settled quits
      exact .busy named threads only (fun id _ => settled.unkilled id) guarded
  | false =>
    have entered : (Call.entered line).manages = false := rfl
    refine inv.phase.alone (.inl rfl) ?_ fun _ h => h
    rw [managers_setCalls, Function.update_eq_self_iff]
    simp [managers, stack, manages, entered]

/-- A handler has returned. -/
theorem returned_inv {line name : Text} {callers : List Call} (inv : s.Inv)
    (stack : s.calls self = .handler line name ipAddr (.pure ()) :: callers) :
    (s.setCalls self callers).Inv := by
  refine ⟨⟨inv.staff.alive, inv.staff.ended, inv.staff.orderly⟩, inv.tokens,
    inv.setCalls_calls ?_, ?_⟩
  · intro c hc
    exact inv.calls self c (by simp [stack, hc])
  cases manages : (Call.handler line name ipAddr (.pure ())).manages with
  | true =>
    obtain ⟨f, -, -, others, only, -, guarded⟩ := inv.phase.manager stack manages
    refine .quiet ?_ guarded.done
    rw [managers_setCalls, only, Function.update_idem, others]
    simp
  | false =>
    refine inv.phase.alone (.inl rfl) ?_ fun _ h => h
    rw [managers_setCalls, Function.update_eq_self_iff]
    simp [managers, stack, manages]

theorem call_inv {c : Call} {callers : List Call} (inv : s.Inv) (stack : s.calls self = c :: callers)
    (meets : s.CallMeets self c) (h : s.advanceCall host self callers c = .ok t) : t.Inv := by
  cases c with
  | entered line =>
    simp only [advanceCall] at h
    split at h
    · rename_i name hread
      cases h
      exact entered_inv inv stack fun f => meets name f hread
    · cases h
  | handler line name ipAddr rest =>
    cases rest with
    | pure a =>
      cases h
      exact returned_inv inv stack
    | op o k =>
      by_cases called : ∃ inner, o = .call inner
      · obtain ⟨inner, rfl⟩ := called
        apply enter_inv _ h
        refine handler_inv (r := ()) inv stack inv.staff inv.tokens rfl ?_ ?_
        · intro f _ _
          exact ⟨rfl, fun _ _ h => h⟩
        · intro _
          exact ⟨rfl, rfl, rfl, rfl, rfl⟩
      · obtain ⟨r, u, hstep, rfl⟩ := advanceCall_op (fun inner same => called ⟨inner, same⟩) h
        have tokens := operate_tokens inv.tokens hstep
        by_cases aside : o.Aside
        · have beside := operate_beside aside hstep
          refine handler_inv inv stack (beside.staff inv.staff) tokens beside.2.2.1 ?_ fun _ => beside
          intro f named _
          constructor
          · apply operate_answer aside _ hstep
            rintro rfl numbered text hread
            obtain ⟨t, read, number⟩ := Params.Holds.number inv.tokens (meets f named numbered)
            cases read.symm.trans hread
            exact number
          · intro id _ unkilled
            exact (congrFun beside.2.1 id).trans unkilled
        · have moves (f : Func) := operate_moves (f := f) inv.staff aside hstep
          refine handler_inv inv stack (moves .stop).staff tokens (moves .stop).calls ?_ ?_
          · intro f _ _
            refine ⟨(moves f).act, ?_⟩
            intro id mine
            apply (moves f).killed id
            rintro rfl
            exact meets mine
          · intro idle
            have orderly : (Call.handler line name ipAddr (.op o k)).Orderly :=
              inv.calls self _ (by simp [stack]) idle
            exact absurd orderly.1 aside

/-! ### The run -/

theorem send_inv {stage : Sender} (inv : s.Inv) (busy : s.activity id = some (.send stage))
    (h : s.advanceSend id stage = .ok t) : t.Inv := by
  unfold advanceSend at h
  split at h
  · rename_i next shared gone hstep
    cases h
    have moved := (Sender.step_moves hstep).1
    have beside : Beside s (s.setShared shared) := by
      refine ⟨rfl, rfl, rfl, ?_, ?_⟩
      · funext handle
        simp only [Roster.setShared]
        rw [moved]
        cases handle <;> rfl
      · simp only [Roster.setShared]
        rw [moved]
    have kept := (inv.beside beside inv.tokens).setActivity (b := .send next) busy (.inl rfl) trivial
    have caught : Beside ((s.setShared shared).setActivity id (.send next))
        { (s.setShared shared).setActivity id (.send next) with catches := s.catches ||
          stage = .signal } :=
      ⟨rfl, rfl, rfl, rfl, rfl⟩
    exact kept.beside caught kept.tokens
  · cases h

theorem receive_inv {stage : Receiver} (inv : s.Inv) (busy : s.activity id = some (.receive stage))
    (h : s.advanceReceive host id stage = .ok t) : t.Inv := by
  cases stage with
  | signal =>
    cases h
    have beside : Beside s { s with catches := true } := ⟨rfl, rfl, rfl, rfl, rfl⟩
    exact (inv.beside beside inv.tokens).setActivity (b := .receive .serverInit) busy
      (.inl rfl) trivial
  | serverInit | recvfrom => cases h
  | process rest =>
    cases rest with
    | pure a =>
      cases h
      exact inv.setActivity (b := .receive .recvfrom) busy (.inl rfl) trivial
    | op o k =>
      have orderly : Prog.Only Op.Aside (.op o k) := inv.staff.orderly id _ busy
      simp only [advanceReceive] at h
      split at h
      · rename_i r u hstep
        cases h
        have beside := operate_beside orderly.1 hstep
        have same : u.activity id = some (.receive (.process (.op o k))) := by rw [beside.1, busy]
        have tokens := operate_tokens inv.tokens hstep
        exact (inv.beside beside tokens).setActivity (b := .receive (.process (k r))) same
          (.inl rfl) (orderly.2 r)
      · cases h

theorem step_inv (inv : s.Inv) {e : RosterEvent} (meets : s.Meets e)
    (h : s.step host e = .ok t) : t.Inv := by
  cases e with
  | take line =>
    simp only [step] at h
    split at h
    · exact enter_inv inv h
    · cases h
  | step self =>
    simp only [step] at h
    unfold Meets at meets
    cases stack : s.calls self with
    | cons c callers =>
      simp only [stack] at h meets
      exact call_inv inv stack meets h
    | nil =>
      cases self with
      | none => simp [stack] at h
      | some id =>
        simp only [stack] at h meets
        cases busy : s.activity id with
        | none => simp [busy] at h
        | some a =>
          cases a with
          | send stage =>
            simp only [busy] at h
            exact send_inv inv busy h
          | receive stage =>
            simp only [busy] at h
            exact receive_inv inv busy h
          | script w =>
            simp only [busy] at h meets
            exact script_inv inv busy stack meets h
  | quit id =>
    simp only [step] at h
    split at h
    · rename_i killed
      cases h
      have killed : s.killed id = true := (Bool.and_eq_true_iff.mp killed).1
      exact inv.endThread (inv.phase.free killed) (.inr killed)
    · cases h
  | serve id port =>
    simp only [step] at h
    split at h
    · rename_i busy
      cases h
      have beside : Beside s (s.setShared { s.world.shared with
          gSyslogPort := port.getD s.world.shared.gSyslogPort }) := by
        refine ⟨rfl, rfl, rfl, ?_, rfl⟩
        funext handle
        cases handle <;> rfl
      exact (inv.beside beside inv.tokens).setActivity (b := .receive .recvfrom) busy
        (.inl rfl) trivial
    · cases h
  | fail id =>
    simp only [step] at h
    split at h
    · cases h
      exact inv.endThread (inv.phase.free meets) (.inr meets)
    · cases h
  | log id text =>
    simp only [step] at h
    split at h
    · rename_i busy
      cases h
      have aside : (syslogProcess text).Only Op.Aside :=
        Cmd.Touches.aside (syslogProcess_touches text) (by decide)
      exact inv.setActivity (b := .receive (.process (syslogProcess text))) busy (.inl rfl) aside
    · cases h

end Beside

section Sound

variable {s : Roster} {id : Tid}

theorem role_some {w : Worker} {h : Handle} (role : w.role = some h) :
    ∃ slot : Slot, h = .script slot ∧ w.slot = slot ∧ w.leaving = false := by
  unfold Worker.role at role
  split at role
  · cases role
  · rename_i working
    obtain ⟨slot, index, rfl⟩ := Option.map_eq_some_iff.mp role
    exact ⟨slot, rfl, clientIndex_some index, by simpa using working⟩

theorem sends_iff : s.handles.role id = some .send ↔ ∃ stage, s.activity id = some (.send stage) := by
  constructor
  · intro role
    obtain ⟨a, busy, role⟩ := Option.bind_eq_some_iff.mp role
    cases a with
    | send stage => exact ⟨stage, busy⟩
    | receive stage => cases role
    | script w =>
      obtain ⟨slot, same, -⟩ := role_some role
      cases same
  · rintro ⟨stage, busy⟩
    simp [handles, busy, Activity.role]

theorem receives_iff :
    s.handles.role id = some .receive ↔ ∃ stage, s.activity id = some (.receive stage) := by
  constructor
  · intro role
    obtain ⟨a, busy, role⟩ := Option.bind_eq_some_iff.mp role
    cases a with
    | send stage => cases role
    | receive stage => exact ⟨stage, busy⟩
    | script w =>
      obtain ⟨slot, same, -⟩ := role_some role
      cases same
  · rintro ⟨stage, busy⟩
    simp [handles, busy, Activity.role]

theorem runs_iff {slot : Slot} : s.handles.role id = some (.script slot) ↔
    ∃ w, s.activity id = some (.script w) ∧ w.slot = slot ∧ w.leaving = false := by
  constructor
  · intro role
    obtain ⟨a, busy, role⟩ := Option.bind_eq_some_iff.mp role
    cases a with
    | send stage | receive stage => cases role
    | script w =>
      obtain ⟨slot', same, own, working⟩ := role_some role
      cases same
      exact ⟨w, busy, own, working⟩
  · rintro ⟨w, busy, own, working⟩
    simp [handles, busy, Activity.role, Worker.role_working working, own]

theorem aside_next {rest : Cmd Unit} (aside : rest.Only Op.Aside) {o : Op}
    (next : rest.next = some o) : o.Aside := by
  cases rest with
  | pure a => cases next
  | op o' k =>
    obtain rfl : o' = o := by simpa [Cmd.next] using next
    exact aside.1

theorem worker_next {w : Worker} (orderly : w.AtWork) {o : Op} (next : w.rest.next = some o) :
    ¬ (o = .pthreadKill id ∨ o = .pthreadJoin id) := by
  rcases orderly with first | second | ⟨cleared, closes⟩
  · rw [first] at next
    cases next
    simp
  · rw [second] at next
    cases next
    simp
  · cases hrest : w.rest with
    | pure a => simp [hrest, Cmd.next] at next
    | op o' k =>
      obtain rfl : o' = o := by simpa [hrest, Cmd.next] using next
      rw [hrest] at closes
      obtain ⟨_, ho, -⟩ := closes
      rcases Op.closes_cases ho with rfl | ⟨rfl, -⟩ | ⟨aside, -⟩
      · simp
      · simp
      · exact aside.apart id

/-- Whatever a thread performs next, it signals and joins only what it may. -/
theorem Inv.joinable (inv : s.Inv) {self : Option Tid} {o : Op} (next : s.next self = some o)
    (about : o = .pthreadKill id ∨ o = .pthreadJoin id) : s.world.shared.joinable id = true := by
  obtain ⟨rest, left, own⟩ := Option.bind_eq_some_iff.mp next
  cases stack : s.calls self with
  | cons c callers =>
    rw [rest_calls stack] at left
    cases c with
    | entered line => cases left
    | handler line name ipAddr rest =>
      cases left
      cases manages : (Call.handler line name ipAddr rest).manages with
      | true =>
        obtain ⟨f, -, -, -, -, -, guarded⟩ := inv.phase.manager stack manages
        cases rest with
        | pure a => cases own
        | op o' k =>
          obtain rfl : o' = o := by simpa [Cmd.next] using own
          exact guarded.legal.joinable id about
      | false =>
        have orderly : (Call.handler line name ipAddr rest).Orderly :=
          inv.calls self _ (by simp [stack]) manages
        exact absurd about ((aside_next orderly own).apart id)
  | nil =>
    cases self with
    | none => simp [rest_none stack] at left
    | some i =>
      rw [rest_some stack] at left
      obtain ⟨a, busy, left⟩ := Option.bind_eq_some_iff.mp left
      have orderly := inv.staff.orderly i a busy
      cases a with
      | send stage => cases left
      | receive stage =>
        cases stage with
        | process rest =>
          cases left
          exact absurd about ((aside_next orderly own).apart id)
        | _ => cases left
      | script w =>
        cases left
        exact absurd about (worker_next orderly.1 own)

theorem Inv.sound (inv : s.Inv) : s.Sound := by
  constructor
  · intro quiet
    have truthful := (inv.phase.settled quiet).truthful .send
    simp only [sends_iff] at truthful
    exact truthful
  · intro quiet
    have truthful := (inv.phase.settled quiet).truthful .receive
    simp only [receives_iff] at truthful
    exact truthful
  · intro quiet slot
    have truthful := (inv.phase.settled quiet).truthful (.script slot)
    simp only [runs_iff] at truthful
    exact truthful
  · intro self id next
    rcases next with next | next
    · exact inv.joinable next (.inl rfl)
    · exact inv.joinable next (.inr rfl)

theorem start_inv (fds : Int → Option Holder) : (idle (World.start fds)).Inv := by
  refine ⟨⟨?_, ?_, ?_⟩, fun _ last => (by cases last), ?_, .quiet rfl ?_⟩
  · intro id a busy
    cases busy
  · intro id _
    rfl
  · intro id a busy
    cases busy
  · intro self c hc
    cases hc
  · constructor
    · intro id h
      cases h <;> simp [handles, idle, recorded, World.start, Shared.initial, Scripts.empty]
    · intro id h role
      cases role
    · intro id
      rfl

end Sound

end Roster

theorem thread_handles (host : Host) (fds : Int → Option Holder) {events : List RosterEvent}
    (along : Along (Roster.step host) (fun e s => s.Meets e) events (.idle (.start fds))) :
    Always (Roster.step host) Roster.Sound events (.idle (.start fds)) :=
  along.always Roster.Inv (fun _ _ _ inv meets step => Roster.step_inv inv meets step)
    (fun _ inv => inv.sound) (Roster.start_inv fds)

def mainSteps (n : Nat) : List RosterEvent := List.replicate n (.step none)

/-- The first two threads get the numbers 4 and 5, and there are no files. -/
def filelessHost : Host := .willing (fun n => 5 + n) (fun n => some (n + 1)) fun _ => none

/-- The sender is started, then a script that ends by itself, and the sender is
stopped. -/
def startStop : List RosterEvent :=
  .take "start test".toList :: mainSteps 14 ++ [.step (some 4),
    .take "rs 1 f".toList] ++ mainSteps 10 ++
    List.replicate 8 (.step (some 5)) ++ [.take "stop test".toList] ++ mainSteps 6 ++
      [.quit 4] ++ mainSteps 4

namespace Roster

/-- Steps that meet the condition if only the main thread is in lines. -/
def plain (s : Roster) : RosterEvent → Bool
  | .step none =>
    match s.calls none with
    | [.entered _] => (s.world.params.param 0).toOption.bind commandFunc ≠ some .quit
    | .entered _ :: _ => false
    | .handler line _ _ (.op (.param 1) _) :: _ => s.number = some (Worker.created line).slot
    | _ => true
  | .step (some id) =>
    match s.activity id with
    | some (.script w) =>
      match w.rest with
      | .op (.param 1) _ => s.number = some w.slot
      | .op (.setScriptThreadID _ _) _ => (s.calls none).isEmpty
      | .op (.scriptCmd _ _) _ => false
      | .op (.call _) _ => false
      | _ => true
    | _ => true
  | .fail _ => false
  | _ => true

variable {s : Roster}

theorem alone_of_plain {e : RosterEvent} (plain : s.plain e = true) : s.Alone e := by
  cases e with
  | step self =>
    cases self with
    | none => trivial
    | some id =>
      intro w line busy passes
      cases hrest : w.rest with
      | pure a => simp [hrest, Cmd.next] at passes
      | op o k =>
        obtain rfl : o = .call line := by simpa [hrest, Cmd.next] using passes
        simp [Roster.plain, busy, hrest] at plain
  | _ => trivial

theorem callMeets_of_plain {c : Call} {callers : List Call} (main : s.MainOnly)
    (stack : s.calls none = c :: callers)
    (plain : s.plain (.step none) = true) : s.CallMeets none c := by
  simp only [Roster.plain, stack] at plain
  cases c with
  | entered line =>
    cases callers with
    | cons => simp at plain
    | nil =>
      intro name f read named threads
      constructor
      · intro self c hc
        cases self with
        | none =>
          obtain rfl : c = .entered line := by simpa [stack] using hc
          rfl
        | some id => simp [main id] at hc
      · rintro rfl
        simp [read, Except.toOption, named] at plain
  | handler line name ipAddr rest =>
    simp only [CallMeets]
    split
    · intro f _ _
      simpa using plain
    · simp
    · trivial

theorem scriptMeets_of_plain {id : Tid} {w : Worker} (main : s.MainOnly)
    (busy : s.activity id = some (.script w))
    (plain : s.plain (.step (some id)) = true) : s.ScriptMeets id w := by
  simp only [Roster.plain, busy] at plain
  unfold ScriptMeets
  split
  · rename_i hrest
    simpa [hrest] using plain
  · rename_i hrest
    right
    intro self c hc
    have idle : s.calls none = [] := by simpa [hrest] using plain
    cases self with
    | none => simp [idle] at hc
    | some i => simp [main i] at hc
  · right
    cases hrest : w.rest with
    | pure a =>
      intro top shape reads
      obtain ⟨k, own⟩ := Top.program_eq reads
      cases shape.trans own
    | op o k =>
      apply nextLine_of_other
      rintro slot index rfl
      simp [hrest] at plain

theorem meets_of_plain {e : RosterEvent} (main : s.MainOnly)
    (plain : s.plain e = true) : s.Meets e := by
  cases e with
  | fail id => cases plain
  | step self =>
    cases self with
    | none =>
      cases stack : s.calls none with
      | nil => simp [Meets, stack]
      | cons c callers =>
        simp only [Meets, stack]
        exact callMeets_of_plain main stack plain
    | some id =>
      simp only [Meets, main id]
      split
      · rename_i w busy
        exact scriptMeets_of_plain main busy plain
      · trivial
  | _ => trivial

end Roster

theorem startStop_handles :
    (runAll (Roster.step filelessHost) startStop (.idle (.start fun _ => none))).toOption.isSome =
      true ∧
      Always (Roster.step filelessHost) Roster.Sound startStop (.idle (.start fun _ => none)) := by
  refine ⟨by decide +kernel, ?_⟩
  apply thread_handles
  have searched : Along (Roster.step filelessHost) (fun e s => s.plain e = true) startStop
      (.idle (.start fun _ => none)) := by
    decide +kernel
  exact searched.guarantees Roster.MainOnly
    (fun _ _ _ main plain => Roster.step_main main (Roster.alone_of_plain plain))
    (fun _ _ => Roster.meets_of_plain) fun _ => rfl

/-- Every thread that is created gets the same number. -/
def oneThread : Host := .willing (fun _ => 3) (fun _ => some 1) fun _ => none

/-- What the main thread signals next. -/
def Roster.signalled (s : Roster) : Option Tid :=
  match s.next none with
  | some (.pthreadKill id) => some id
  | _ => none

/-- The receiver is started, `q` stops it, and `stop rec` reads its handle. -/
def stopAfterQuit : List RosterEvent :=
  .take "start rec".toList :: mainSteps 9 ++ [.step (some 1), .take "q".toList] ++ mainSteps 4 ++
    [.quit 1] ++ mainSteps 80 ++ [.take "stop rec".toList] ++ mainSteps 5

theorem stopAfterQuit_signals : ((runAll (Roster.step oneThread) stopAfterQuit
    (.idle (.start fun _ => none))).toOption.map fun s => (s.signalled, s.world.shared.joinable 1)) =
      some (some 1, false) := by
  decide +kernel

theorem quit_stop_unsound : ¬ ∀ host fds events,
    Always (Roster.step host) Roster.Sound events (.idle (.start fds)) := by
  intro always
  have signals := stopAfterQuit_signals
  cases reached : runAll (Roster.step oneThread) stopAfterQuit (.idle (.start fun _ => none)) with
  | error f => simp [reached, Except.toOption] at signals
  | ok s =>
    obtain ⟨signalled, joined⟩ : s.signalled = some 1 ∧ s.world.shared.joinable 1 = false := by
      simpa [reached, Except.toOption] using signals
    have next : s.next none = some (.pthreadKill 1) := by
      unfold Roster.signalled at signalled
      split at signalled
      · rename_i id next
        rw [next, Option.some.inj signalled]
      · cases signalled
    have sound := (always oneThread (fun _ => none) stopAfterQuit).last reached
    exact absurd (sound.joinable none 1 (.inl next)) (by simp [joined])

end AutoTest
