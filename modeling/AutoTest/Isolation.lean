import AutoTest.History

/-!
# Command threads that share the token array

Any number of threads process lines, one of them running at a time, and
another one goes on only where a handler blocks. A thread can be in several
lines at once, since `autoConfig` and `randomKey` pass lines on.

* `Crew.Inv`: all lines but one no longer access the tokens. The exception is
  the innermost line of one thread, whose tokens are in the array: the running
  thread, or one that waits inside `stop n script`.
* `tokens_isolated`: a handler reads the tokens of its own line, in every run
  that processes no line while another thread waits inside `stop n script`.
-/

namespace AutoTest

open CString Program

/-! ## Interleavings -/

/-- A line being processed: its tokens and what is left of its handler. -/
structure Frame where
  argv : List Text
  rest : Cmd Unit

namespace Frame

/-- The next operation is one in which other threads can run. -/
def blocked (F : Frame) : Bool :=
  match F.rest with
  | .op o _ => o.blocks
  | .pure _ => false

end Frame

structure Crew (ι : Type) where
  world : World
  /-- the lines a thread is in, the innermost first -/
  stack : ι → List Frame
  running : ι

inductive CrewEvent (ι : Type) where
  /-- the running thread, which is in no line, takes one -/
  | take (line : Text)
  /-- the running thread performs its next operation -/
  | step
  | switch (i : ι)
  /-- a thread ends, perhaps inside a handler -/
  | exit (i : ι)

namespace Crew

variable {ι : Type} [DecidableEq ι]

def idle (world : World) (running : ι) : Crew ι := ⟨world, fun _ => [], running⟩

def setStack (frames : List Frame) (m : Crew ι) : Crew ι :=
  { m with stack := Function.update m.stack m.running frames }

/-- `cmd_proc` up to the choice of the handler. -/
def enter (line : Text) (m : Crew ι) : Except Fault (Crew ι) :=
  match lineTokens line, m.world.params.load line with
  | some argv, .ok p =>
    .ok ({ m with world := { m.world with params := p } }.setStack
      (⟨argv, Cmd.param 0 >>= dispatch⟩ :: m.stack m.running))
  | _, _ => .error .format

/-- The line that an event hands to `cmd_proc`. -/
def tokenised (m : Crew ι) : CrewEvent ι → Option Text
  | .take line => some line
  | .step =>
    match m.stack m.running with
    | ⟨_, .op (.call line) _⟩ :: _ => some line
    | _ => none
  | _ => none

def step (host : Host) : CrewEvent ι → Crew ι → Except Fault (Crew ι)
  | .take line, m =>
    match m.stack m.running with
    | [] => m.enter line
    | _ :: _ => .error .invalid
  | .step, m =>
    match m.stack m.running with
    | [] => .error .invalid
    | ⟨_, .pure _⟩ :: callers => .ok (m.setStack callers)
    | ⟨argv, .op o k⟩ :: callers =>
      match o, k with
      | .call line, k => (m.setStack (⟨argv, k ()⟩ :: callers)).enter line
      | o, k =>
        match interp host (fun _ => .ok) o m.world with
        | .ok (r, w) => .ok ({ m with world := w }.setStack (⟨argv, k r⟩ :: callers))
        | .error f => .error f
  | .switch i, m =>
    match m.stack m.running with
    | [] => .ok { m with running := i }
    | F :: _ => if F.blocked then .ok { m with running := i } else .error .invalid
  | .exit i, m => .ok { m with stack := Function.update m.stack i [] }

end Crew

/-! ## What is left of a line -/

section Frames

variable (host : Host)

/-- The setting of a handler that runs among other threads, or undisturbed. -/
def among (threads : Bool) : Setting := ⟨threads, host.files, fun _ => True⟩

theorem among_closed (threads : Bool) : (among host threads).Closed :=
  ⟨fun _ _ _ _ _ _ _ => trivial, fun _ _ => trivial⟩

/-- What is left of a handler while its tokens are answered truly. -/
def Cmd.Under (argv : List Text) (P : Op → Prop) {α : Type} : Cmd α → Prop
  | .pure _ => True
  | .op o k => P o ∧ ∀ r, o.Answers (among host true) argv r → Cmd.Under argv P (k r)

/-- A handle is stored only for the slot that the line names. -/
def Op.OnSlot (argv : List Text) : Op → Prop
  | .setScriptThreadID slot _ => slot = atoi (argv.getD 1 [])
  | _ => True

namespace Frame

variable (F : Frame)

/-- No token is accessed any more. -/
def Spent : Prop := F.rest.Tidy (among host true) F.argv false

/-- The tokens are read only while the array holds them. A handler that reads
some again after it has waited must not be disturbed meanwhile. -/
def Fresh (w : World) : Prop :=
  ∃ threads fresh, (threads = false → Rereads F.argv) ∧
    F.rest.Tidy (among host threads) F.argv fresh ∧
    (fresh = true → ∃ old, Params.Loaded F.argv old w.params)

/-- A `stop n script` line stores handles for slot `n` only. -/
def Clears : Prop := Rereads F.argv → F.rest.Under host F.argv (Op.OnSlot F.argv)

end Frame

variable {host} {argv : List Text} {α : Type}

theorem Tidy.spent {threads : Bool} {p : Cmd α} (h : p.Tidy (among host threads) argv false) :
    p.Tidy (among host true) argv false := by
  induction p with
  | pure a => trivial
  | op o k ih => exact ⟨h.1, fun r hr => ih r (h.2 r hr)⟩

theorem Frame.Spent.fresh {F : Frame} (h : F.Spent host) (w : World) : F.Fresh host w :=
  ⟨true, false, by simp, h, by simp⟩

/-- At a blocking call the tokens are given up, but by a line that reads again. -/
theorem Frame.Fresh.yield {F : Frame} {w : World} (h : F.Fresh host w) (blocked : F.blocked = true) :
    F.Spent host ∨ Rereads F.argv := by
  obtain ⟨threads, fresh, waits, tidy, -⟩ := h
  cases threads with
  | false => exact .inr (waits rfl)
  | true =>
    left
    unfold Frame.Spent
    unfold Frame.blocked at blocked
    cases hrest : F.rest with
    | pure a => trivial
    | op o k =>
      rw [hrest] at tidy blocked
      have blocks : o.blocks = true := blocked
      have spoils : (fresh && !o.spoils true) = false := by simp [Op.spoils, blocks]
      constructor
      · cases o <;> trivial
      · intro r hr
        have next := tidy.2 r hr
        rw [show (fresh && !o.spoils (among host true).threads) = false from spoils] at next
        exact next

/-- The answers of an operation are those its tokens and files give. -/
theorem Frame.Fresh.answers {argv : List Text} {o : Op} {k : o.Res → Cmd Unit} {w v : World}
    (h : Frame.Fresh host ⟨argv, .op o k⟩ w) {r : o.Res}
    (hstep : interp host (fun _ => .ok) o w = .ok (r, v)) :
    o.Answers (among host true) argv r ∧ Frame.Fresh host ⟨argv, k r⟩ v := by
  obtain ⟨threads, fresh, waits, tidy, loaded⟩ := h
  have old : ∃ old, fresh = true → Params.Loaded argv old w.params := by
    cases fresh with
    | false => exact ⟨.initial, by simp⟩
    | true =>
      obtain ⟨old, loaded⟩ := loaded rfl
      exact ⟨old, fun _ => loaded⟩
  obtain ⟨old, loaded⟩ := old
  obtain ⟨answers, next⟩ := tidy.1.step rfl loaded hstep
  exact ⟨answers, threads, _, waits, tidy.2 r answers, fun h => ⟨old, next h⟩⟩

theorem Spent.silent {o : Op} (within : o.Within (among host true) argv false)
    (noCall : ∀ line, o ≠ .call line) : o.Silent := by
  cases o with
  | setParams line => exact within.elim
  | paramNum => exact absurd within (by simp [Op.Within])
  | param i => exact absurd within.1 (by simp)
  | getTokens inStr delim => exact absurd within (by simp [Op.Within])
  | call line => exact absurd rfl (noCall line)
  | _ => trivial

namespace Cmd.Under

variable {P : Op → Prop}

theorem of_only {p : Cmd α} (h : p.Only P) : p.Under host argv P := by
  induction p with
  | pure a => trivial
  | op o k ih => exact ⟨h.1, fun r _ => ih r (h.2 r)⟩

theorem ite {q : Prop} [Decidable q] {p p' : Cmd α} (hp : q → p.Under host argv P)
    (hq : ¬ q → p'.Under host argv P) : Cmd.Under host argv P (if q then p else p') := by
  by_cases h : q
  · simpa only [h, ↓reduceIte] using hp h
  · simpa only [h, ↓reduceIte] using hq h

theorem param {i : Nat} {f : Text → Cmd α} (hi : i < argv.length) (read : P (.param i))
    (h : (f argv[i]).Under host argv P) : (Cmd.param i >>= f).Under host argv P := by
  refine ⟨read, ?_⟩
  intro r hr
  obtain rfl : argv[i] = r := by
    have : argv[i]? = some r := hr
    simpa [List.getElem?_eq_getElem hi] using this
  exact h

end Cmd.Under

theorem wrongParameter_onSlot (cmdNum : Nat) : (wrongParameter cmdNum).Only (Op.OnSlot argv) := by
  repeat refine ⟨trivial, fun _ => ?_⟩
  trivial

/-- With a slot number and `script`, `stop` clears the handle of that slot. -/
theorem stop_onSlot (cmdNum : Nat) (script : Func.stop.Rereads argv) :
    (stop cmdNum).Under host argv (Op.OnSlot argv) := by
  obtain ⟨three, hscript, other⟩ := script
  have hmode : argv[1]? = some argv[1] := List.getElem?_eq_getElem _
  have slot : argv.getD 1 [] = argv[1] := by simp [List.getD, hmode]
  have notMode {mode : Text} (hmem : mode ∈ plainModes) : argv[1] ≠ mode := by
    rintro same
    exact other mode hmem (same ▸ hmode)
  unfold stop
  refine ⟨trivial, fun sendId _ => ⟨trivial, fun recId _ => ⟨trivial, fun count hcount => ?_⟩⟩⟩
  refine .ite (fun _ => .of_only (wrongParameter_onSlot cmdNum)) fun _ => .param (by omega) trivial ?_
  rw [if_neg (notMode (by simp [plainModes])), if_neg (notMode (by simp [plainModes])),
    if_neg (notMode (by simp [plainModes]))]
  refine .param (by omega) trivial (.ite (fun _ => ?_) fun _ =>
    .of_only (wrongParameter_onSlot cmdNum))
  refine .param (by omega) trivial (.ite (fun _ => .of_only ⟨trivial, fun _ => trivial⟩) fun _ => ?_)
  refine ⟨trivial, fun scId _ => .ite (fun _ => trivial) fun _ => ?_⟩
  refine ⟨trivial, fun _ _ => ⟨trivial, fun _ _ => .param (by omega) trivial ?_⟩⟩
  refine ⟨congrArg atoi slot.symm, fun _ _ => .param (by omega) trivial ?_⟩
  exact .of_only ⟨trivial, fun _ => trivial⟩

theorem dispatch_clears (argv : List Text) : Frame.Clears host ⟨argv, Cmd.param 0 >>= dispatch⟩ := by
  intro script
  have ⟨name, cmdNum, first, code, rereads⟩ := script
  have inside : 0 < argv.length := by
    cases argv with
    | nil => cases first
    | cons name argv => simp
  have hname : argv[0] = name := by
    simpa [List.head?_eq_getElem?, List.getElem?_eq_getElem inside] using first
  have handler : dispatch argv[0] = (cmdEntry cmdNum).func.run cmdNum := by
    rw [hname]
    simp only [dispatch, code]
  refine Cmd.Under.param inside trivial ?_
  show Cmd.Under host argv (Op.OnSlot argv) (dispatch argv[0])
  rw [handler]
  cases hfunc : (cmdEntry cmdNum).func with
  | stop =>
    rw [hfunc] at rereads
    exact stop_onSlot cmdNum rereads
  | _ =>
    rw [hfunc] at rereads
    exact rereads.elim

end Frames

/-! ## The invariant -/

namespace Crew

variable {ι : Type} {host : Host}

/-- Only the innermost line of `owner` may access the tokens. -/
structure Owns (host : Host) (m : Crew ι) (owner : ι) : Prop where
  others : ∀ j ≠ owner, ∀ F ∈ m.stack j, F.Spent host
  top : ∀ F callers, m.stack owner = F :: callers →
    F.Fresh host m.world ∧ ∀ G ∈ callers, G.Spent host
  turn : owner = m.running ∨ ∃ F callers, m.stack owner = F :: callers ∧ Rereads F.argv

structure Inv (host : Host) (m : Crew ι) : Prop where
  clears : ∀ j, ∀ F ∈ m.stack j, F.Clears host
  owned : ∃ owner, m.Owns host owner

/-- No other thread is in a line that reads its tokens again. -/
def Undisturbed (m : Crew ι) : Prop := ∀ j ≠ m.running, ∀ F ∈ m.stack j, ¬ Rereads F.argv

theorem Owns.running {m : Crew ι} {owner : ι} (owns : m.Owns host owner) (alone : m.Undisturbed) :
    owner = m.running := by
  rcases owns.turn with h | ⟨F, callers, hstack, script⟩
  · exact h
  · apply Classical.byContradiction
    intro other
    exact alone owner other F (by simp [hstack]) script

theorem idle_inv (world : World) (running : ι) : (idle world running).Inv host := by
  refine ⟨by simp [idle], running, by simp [idle], ?_, .inl rfl⟩
  intro F callers hstack
  cases hstack

/-- When no line accesses the tokens any more, every thread may go on. -/
theorem Owns.of_spent {m : Crew ι} (spent : ∀ j, ∀ F ∈ m.stack j, F.Spent host) :
    m.Owns host m.running := by
  refine ⟨fun j _ => spent j, fun F callers hstack => ⟨?_, fun G hG => ?_⟩, .inl rfl⟩
  · exact (spent m.running F (by simp [hstack])).fresh m.world
  · exact spent m.running G (by simp [hstack, hG])

variable [DecidableEq ι]

theorem setStack_mem {m : Crew ι} {frames : List Frame} {j : ι} {F : Frame}
    (h : F ∈ (m.setStack frames).stack j) :
    (j = m.running ∧ F ∈ frames) ∨ (j ≠ m.running ∧ F ∈ m.stack j) := by
  by_cases same : j = m.running
  · subst same
    exact .inl ⟨rfl, by simpa [setStack] using h⟩
  · exact .inr ⟨same, by simpa [setStack, same] using h⟩

theorem enter_inv {m m' : Crew ι} {line : Text} (supplied : SuppliedLine line)
    (clears : ∀ j, ∀ F ∈ m.stack j, F.Clears host) (spent : ∀ j, ∀ F ∈ m.stack j, F.Spent host)
    (h : m.enter line = .ok m') : m'.Inv host := by
  unfold enter at h
  cases tokens : lineTokens line with
  | none => simp [tokens] at h
  | some argv =>
    obtain ⟨p, hload, loaded⟩ := Params.load_own tokens m.world.params
    simp only [tokens, hload, Except.ok.injEq] at h
    subst h
    have fresh : Frame.Fresh host ⟨argv, Cmd.param 0 >>= dispatch⟩ { m.world with params := p } := by
      have first {threads : Bool} (once : threads = true → ¬ Rereads argv) :
          (Cmd.param 0 >>= dispatch).Tidy (among host threads) argv true :=
        first_tidy (among_closed host threads) (supplied argv tokens) once
      by_cases script : Rereads argv
      · exact ⟨false, true, fun _ => script, first (by simp), fun _ => ⟨_, loaded⟩⟩
      · exact ⟨true, true, by simp, first fun _ => script, fun _ => ⟨_, loaded⟩⟩
    constructor
    · intro j F hF
      rcases setStack_mem hF with ⟨-, hF⟩ | ⟨-, hF⟩
      · rcases List.mem_cons.mp hF with rfl | hF
        · exact dispatch_clears argv
        · exact clears _ F hF
      · exact clears j F hF
    · refine ⟨m.running, ?_, ?_, .inl rfl⟩
      · intro j other F hF
        rcases setStack_mem hF with ⟨same, -⟩ | ⟨-, hF⟩
        · exact absurd same other
        · exact spent j F hF
      · intro F callers hstack
        simp only [setStack, Function.update_self, List.cons.injEq] at hstack
        obtain ⟨rfl, rfl⟩ := hstack
        exact ⟨fresh, fun G hG => spent _ G hG⟩

/-- What a step asks of its line and of the other threads. -/
def Careful (e : CrewEvent ι) (m : Crew ι) : Prop :=
  ∀ line, m.tokenised e = some line → SuppliedLine line ∧ m.Undisturbed

instance (e : CrewEvent Bool) (m : Crew Bool) : Decidable (Careful e m) :=
  inferInstanceAs (Decidable (∀ line ∈ m.tokenised e, SuppliedLine line ∧
    ∀ j ≠ m.running, ∀ F ∈ m.stack j, ¬ Rereads F.argv))

theorem Owns.spent {m : Crew ι} {owner : ι} (owns : m.Owns host owner) {j : ι}
    (callers : ∀ F ∈ m.stack owner, F.Spent host) : ∀ F ∈ m.stack j, F.Spent host := by
  intro F hF
  by_cases same : j = owner
  · subst same
    exact callers F hF
  · exact owns.others j same F hF

/-- The innermost line of the running thread is over. -/
theorem done_inv {m : Crew ι} (inv : m.Inv host) {F : Frame} {callers : List Frame}
    (hstack : m.stack m.running = F :: callers) : (m.setStack callers).Inv host := by
  obtain ⟨owner, owns⟩ := inv.owned
  constructor
  · intro j G hG
    rcases setStack_mem hG with ⟨-, hG⟩ | ⟨-, hG⟩
    · exact inv.clears m.running G (by simp [hstack, hG])
    · exact inv.clears j G hG
  by_cases same : owner = m.running
  · subst same
    refine ⟨m.running, Owns.of_spent fun j G hG => ?_⟩
    rcases setStack_mem hG with ⟨-, hG⟩ | ⟨other, hG⟩
    · exact (owns.top F callers hstack).2 G hG
    · exact owns.others j other G hG
  · have kept : (m.setStack callers).stack owner = m.stack owner := by simp [setStack, same]
    refine ⟨owner, fun j other G hG => ?_, fun G rest hG => ?_, ?_⟩
    · rcases setStack_mem hG with ⟨-, hG⟩ | ⟨-, hG⟩
      · exact owns.others m.running (fun h => same h.symm) G (by simp [hstack, hG])
      · exact owns.others j other G hG
    · exact owns.top G rest (kept ▸ hG)
    · rcases owns.turn with h | script
      · exact absurd h same
      · exact .inr (kept ▸ script)

theorem switch_inv {m : Crew ι} (inv : m.Inv host) (i : ι)
    (may : ∀ F callers, m.stack m.running = F :: callers → F.blocked = true) :
    Inv host { m with running := i } := by
  obtain ⟨owner, owns⟩ := inv.owned
  refine ⟨inv.clears, ?_⟩
  have handOver (spent : ∀ j, ∀ F ∈ m.stack j, F.Spent host) :
      ∃ owner, Owns host { m with running := i } owner :=
    ⟨i, Owns.of_spent (m := { m with running := i }) spent⟩
  have keep (script : ∃ F callers, m.stack owner = F :: callers ∧ Rereads F.argv) :
      ∃ owner, Owns host { m with running := i } owner :=
    ⟨owner, owns.others, owns.top, .inr script⟩
  rcases owns.turn with same | script
  · subst same
    cases hstack : m.stack m.running with
    | nil => exact handOver fun j => owns.spent (by simp [hstack])
    | cons F callers =>
      obtain ⟨fresh, spent⟩ := owns.top F callers hstack
      rcases fresh.yield (may F callers hstack) with given | script
      · refine handOver fun j => owns.spent ?_
        rw [hstack]
        simpa using ⟨given, spent⟩
      · exact keep ⟨F, callers, hstack, script⟩
  · exact keep script

theorem exit_inv {m : Crew ι} (inv : m.Inv host) (i : ι) :
    Inv host { m with stack := Function.update m.stack i [] } := by
  obtain ⟨owner, owns⟩ := inv.owned
  have left {j : ι} {F : Frame} (h : F ∈ Function.update m.stack i [] j) : F ∈ m.stack j := by
    by_cases same : j = i
    · simp [same] at h
    · simpa [same] using h
  refine ⟨fun j F hF => inv.clears j F (left hF), ?_⟩
  by_cases same : owner = i
  · subst same
    refine ⟨m.running, Owns.of_spent (m := { m with stack := Function.update m.stack owner [] })
      fun j F hF => ?_⟩
    by_cases ended : j = owner
    · simp [ended] at hF
    · exact owns.others j ended F (left hF)
  · refine ⟨owner, fun j other F hF => owns.others j other F (left hF), ?_, ?_⟩
    · intro F callers hF
      exact owns.top F callers (by simpa [same] using hF)
    · simpa [same] using owns.turn

theorem op_inv {m : Crew ι} (inv : m.Inv host) {argv : List Text} {o : Op} {k : o.Res → Cmd Unit}
    {callers : List Frame} (hstack : m.stack m.running = ⟨argv, .op o k⟩ :: callers)
    (noCall : ∀ line, o ≠ .call line) {r : o.Res} {w : World}
    (hstep : interp host (fun _ => .ok) o m.world = .ok (r, w)) :
    ({ m with world := w }.setStack (⟨argv, k r⟩ :: callers)).Inv host := by
  obtain ⟨owner, owns⟩ := inv.owned
  have fresh : Frame.Fresh host ⟨argv, .op o k⟩ m.world := by
    by_cases same : owner = m.running
    · subst same
      exact (owns.top _ callers hstack).1
    · exact (owns.others m.running (fun h => same h.symm) _ (by simp [hstack])).fresh _
  obtain ⟨answers, next⟩ := fresh.answers hstep
  constructor
  · intro j F hF
    rcases setStack_mem hF with ⟨-, hF⟩ | ⟨-, hF⟩
    · rcases List.mem_cons.mp hF with rfl | hF
      · intro script
        have clears := inv.clears m.running ⟨argv, .op o k⟩ (by simp [hstack]) script
        exact clears.2 r answers
      · exact inv.clears m.running F (by simp [hstack, hF])
    · exact inv.clears j F hF
  by_cases same : owner = m.running
  · subst same
    refine ⟨m.running, fun j other F hF => ?_, fun F rest hF => ?_, .inl rfl⟩
    · rcases setStack_mem hF with ⟨same, -⟩ | ⟨-, hF⟩
      · exact absurd same other
      · exact owns.others j other F hF
    · simp only [setStack, Function.update_self, List.cons.injEq] at hF
      obtain ⟨rfl, rfl⟩ := hF
      exact ⟨next, (owns.top _ callers hstack).2⟩
  · have spent : Frame.Spent host ⟨argv, .op o k⟩ :=
      owns.others m.running (fun h => same h.symm) _ (by simp [hstack])
    have unchanged := (interp_silent_ok (Spent.silent spent.1 noCall) hstep).2
    refine ⟨owner, fun j other F hF => ?_, fun F rest hF => ?_, ?_⟩
    · rcases setStack_mem hF with ⟨-, hF⟩ | ⟨-, hF⟩
      · rcases List.mem_cons.mp hF with rfl | hF
        · exact spent.2 r answers
        · exact owns.others m.running (fun h => same h.symm) F (by simp [hstack, hF])
      · exact owns.others j other F hF
    · have kept : m.stack owner = F :: rest := by simpa [setStack, same] using hF
      obtain ⟨⟨threads, fresh, waits, tidy, loaded⟩, callersSpent⟩ := owns.top F rest kept
      refine ⟨⟨threads, fresh, waits, tidy, fun h => ?_⟩, callersSpent⟩
      obtain ⟨old, loaded⟩ := loaded h
      exact ⟨old, unchanged ▸ loaded⟩
    · rcases owns.turn with h | script
      · exact absurd h same
      · exact .inr (by simpa [setStack, same] using script)

theorem step_op {m : Crew ι} {argv : List Text} {o : Op} {k : o.Res → Cmd Unit}
    {callers : List Frame} (hstack : m.stack m.running = ⟨argv, .op o k⟩ :: callers)
    (noCall : ∀ line, o ≠ .call line) : m.step host .step =
      match interp host (fun _ => .ok) o m.world with
      | .ok (r, w) => .ok ({ m with world := w }.setStack (⟨argv, k r⟩ :: callers))
      | .error f => .error f := by
  simp only [step, hstack]
  cases o with
  | call line => exact absurd rfl (noCall line)
  | _ => rfl

theorem call_inv {m m' : Crew ι} (inv : m.Inv host) (alone : m.Undisturbed) {argv : List Text}
    {line : Text} (supplied : SuppliedLine line) {k : Unit → Cmd Unit} {callers : List Frame}
    (hstack : m.stack m.running = ⟨argv, .op (.call line) k⟩ :: callers)
    (h : (m.setStack (⟨argv, k ()⟩ :: callers)).enter line = .ok m') : m'.Inv host := by
  obtain ⟨owner, owns⟩ := inv.owned
  obtain rfl := owns.running alone
  obtain ⟨⟨threads, fresh, -, tidy, -⟩, spent⟩ := owns.top _ callers hstack
  have given : Frame.Spent host ⟨argv, k ()⟩ := by
    have next := tidy.2 () trivial
    rw [show (fresh && !Op.spoils (among host threads).threads (.call line)) = false by
      simp [Op.spoils, Op.retokenises]] at next
    exact Tidy.spent next
  refine enter_inv supplied (fun j F hF => ?_) (fun j F hF => ?_) h
  · rcases setStack_mem hF with ⟨-, hF⟩ | ⟨-, hF⟩
    · rcases List.mem_cons.mp hF with rfl | hF
      · intro script
        exact (inv.clears m.running ⟨argv, .op (.call line) k⟩ (by simp [hstack]) script).2 () trivial
      · exact inv.clears m.running F (by simp [hstack, hF])
    · exact inv.clears j F hF
  · rcases setStack_mem hF with ⟨-, hF⟩ | ⟨other, hF⟩
    · rcases List.mem_cons.mp hF with rfl | hF
      · exact given
      · exact spent F hF
    · exact owns.others j other F hF

theorem step_inv {e : CrewEvent ι} {m m' : Crew ι} (inv : m.Inv host) (careful : Careful e m)
    (h : m.step host e = .ok m') : m'.Inv host := by
  cases e with
  | take line =>
    simp only [step] at h
    cases hstack : m.stack m.running with
    | cons F callers => simp [hstack] at h
    | nil =>
      simp only [hstack] at h
      obtain ⟨supplied, alone⟩ := careful line rfl
      obtain ⟨owner, owns⟩ := inv.owned
      obtain rfl := owns.running alone
      exact enter_inv supplied inv.clears (fun j => owns.spent (by simp [hstack])) h
  | switch i =>
    simp only [step] at h
    cases hstack : m.stack m.running with
    | nil =>
      simp only [hstack, Except.ok.injEq] at h
      subst h
      exact switch_inv inv i (by simp [hstack])
    | cons F callers =>
      simp only [hstack] at h
      split at h
      · rename_i blocked
        simp only [Except.ok.injEq] at h
        subst h
        exact switch_inv inv i (by simp [hstack, blocked])
      · cases h
  | exit i =>
    simp only [step, Except.ok.injEq] at h
    subst h
    exact exit_inv inv i
  | step =>
    cases hstack : m.stack m.running with
    | nil => simp [step, hstack] at h
    | cons F callers =>
      obtain ⟨argv, rest⟩ := F
      cases rest with
      | pure a =>
        simp only [step, hstack, Except.ok.injEq] at h
        subst h
        exact done_inv inv hstack
      | op o k =>
        by_cases nested : ∃ line, o = .call line
        · obtain ⟨line, rfl⟩ := nested
          have given : m.tokenised .step = some line := by simp [tokenised, hstack]
          obtain ⟨supplied, alone⟩ := careful line given
          simp only [step, hstack] at h
          exact call_inv inv alone supplied hstack h
        · have noCall : ∀ line, o ≠ .call line := fun line same => nested ⟨line, same⟩
          rw [step_op hstack noCall] at h
          cases hstep : interp host (fun _ => .ok) o m.world with
          | error f => simp [hstep] at h
          | ok rw' =>
            simp only [hstep, Except.ok.injEq] at h
            subst h
            exact op_inv inv hstack noCall hstep

/-! ## Isolation -/

/-- What the running thread is about to read is its own, and the handle that
`stop n script` is about to clear is that of slot `n`. -/
structure Isolated (m : Crew ι) : Prop where
  param : ∀ argv i k callers, m.stack m.running = ⟨argv, .op (.param i) k⟩ :: callers →
    ∃ t, argv[i]? = some t ∧ m.world.params.param i = .ok t
  paramNum : ∀ argv k callers, m.stack m.running = ⟨argv, .op .paramNum k⟩ :: callers →
    m.world.params.gParamNum = argv.length - 1
  slot : ∀ argv slot id k callers,
    m.stack m.running = ⟨argv, .op (.setScriptThreadID slot id) k⟩ :: callers → Rereads argv →
      slot = atoi (argv.getD 1 [])

theorem Inv.isolated {m : Crew ι} (inv : m.Inv host) : m.Isolated := by
  obtain ⟨owner, owns⟩ := inv.owned
  have fresh {F : Frame} {callers : List Frame} (hstack : m.stack m.running = F :: callers) :
      F.Fresh host m.world := by
    by_cases same : owner = m.running
    · subst same
      exact (owns.top F callers hstack).1
    · exact (owns.others m.running (fun h => same h.symm) F (by simp [hstack])).fresh _
  refine ⟨fun argv i k callers hstack => ?_, fun argv k callers hstack => ?_,
    fun argv slot id k callers hstack script => ?_⟩
  · obtain ⟨threads, isFresh, -, tidy, loaded⟩ := fresh hstack
    obtain ⟨old, loaded⟩ := loaded tidy.1.1
    have inside : i < argv.length := tidy.1.2
    exact ⟨argv[i], List.getElem?_eq_getElem inside, loaded.own i inside⟩
  · obtain ⟨threads, isFresh, -, tidy, loaded⟩ := fresh hstack
    obtain ⟨old, loaded⟩ := loaded tidy.1
    exact loaded.count
  · exact (inv.clears m.running ⟨argv, .op (.setScriptThreadID slot id) k⟩
      (by simp [hstack]) script).1

/-- In a run that processes only lines that supply their tokens, and none while
another thread is inside `stop n script`, handlers read their own tokens. -/
theorem tokens_isolated (host : Host) (world : World) (running : ι) (run : List (CrewEvent ι))
    (careful : Along (step host) Careful run (idle world running)) {m : Crew ι}
    (reached : runAll (step host) run (idle world running) = .ok m) : m.Isolated :=
  (Along.invariant (Inv host) (fun _ _ _ inv careful h => step_inv inv careful h)
    (idle_inv world running) careful reached).isolated

section Sample

/-- The token about to be read, and the one the line has there. -/
def nextRead (m : Crew Bool) : Option (Option Text × Option Text) :=
  match m.stack m.running with
  | ⟨argv, .op (.param i) _⟩ :: _ => some ((m.world.params.param i).toOption, argv[i]?)
  | _ => none

/-- A second thread takes a line while the first sleeps, and the first takes
another while the second does. -/
def twoDelays : List (CrewEvent Bool) :=
  [.take "delay 1".toList, .step, .step, .step, .switch true, .take "delay 22".toList,
    .step, .step, .step, .switch false, .step, .step, .take "delay 333".toList, .step, .step]

/-- The first thread is about to read the argument of its own line. -/
theorem twoDelays_isolated :
    ∃ m, runAll (step bareHost) twoDelays (idle (.start fun _ => none) false) = .ok m ∧
    nextRead m = some (some "333".toList, some "333".toList) ∧ m.Isolated := by
  have reads : (runAll (step bareHost) twoDelays (idle (.start fun _ => none) false)).toOption.map
    nextRead =
      some (some (some "333".toList, some "333".toList)) := by
    decide +kernel
  cases reached : runAll (step bareHost) twoDelays (idle (.start fun _ => none) false) with
  | error f => simp [reached, Except.toOption] at reads
  | ok m =>
    simp only [reached, Except.toOption, Option.map_some, Option.some.injEq] at reads
    have careful : Along (step bareHost) Careful twoDelays (idle (.start fun _ => none) false) := by
      decide +kernel
    exact ⟨m, rfl, reads, tokens_isolated bareHost (.start fun _ => none) false twoDelays
      careful reached⟩

/-- Scripts 1 and 2 run, in the threads 7 and 9. -/
def twoScripts : World :=
  let s := Shared.initial fun _ => none
  let ids : Slot → Tid := fun slot => if slot = 1 then 7 else if slot = 2 then 9 else 0
  let scripts := { s.scripts with thrScriptId := ids }
  ⟨.initial, { s with scripts := scripts, joinable := fun id => id = 7 }⟩

/-- While `stop 1 script` waits, another thread processes a line. -/
def stopDisturbed : List (CrewEvent Bool) :=
  [.take "stop 1 script".toList] ++ List.replicate 9 .step ++
    [.switch true, .take "x 2".toList] ++ List.replicate 3 .step ++ [.switch false, .step]

/-- Slot 2 is about to be cleared in place of slot 1. -/
theorem stopDisturbed_reads_other :
    ¬ ∀ run m, runAll (step bareHost) run (idle twoScripts false) = .ok m → m.Isolated := by
  intro isolated
  have reads : (runAll (step bareHost) stopDisturbed (idle twoScripts false)).toOption.map nextRead =
      some (some (some "2".toList, some "1".toList)) := by
    decide +kernel
  cases reached : runAll (step bareHost) stopDisturbed (idle twoScripts false) with
  | error f => simp [reached, Except.toOption] at reads
  | ok m =>
    have own := (isolated stopDisturbed m reached).param
    simp only [reached, Except.toOption, Option.map_some, Option.some.injEq, nextRead] at reads
    split at reads
    · rename_i argv i k callers hstack
      obtain ⟨t, htoken, hread⟩ := own argv i k callers hstack
      simp only [hread, htoken, Option.some.injEq, Prod.mk.injEq] at reads
      obtain ⟨two, one⟩ := reads
      exact absurd (two.symm.trans one) (by decide)
    · cases reads

end Sample

end Crew

end AutoTest
