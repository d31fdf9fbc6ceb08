import AutoTest.Footprint
import AutoTest.World

/-!
# What a line owes to the lines before it

Only the tokens of earlier lines and the name of the last configuration file
are not part of the state two histories are compared by.

* `sharedStep_core`: one operation alone looks at the rest, to print that name.
* `Tidy.run_core`: a tidy handler does and prints the same whatever earlier
  lines left in the token array, and `Tidy.run_own`: it reads its own entries only.
* `history_free_iff`: that holds of all lines of a set exactly when each of
  them supplies the tokens its handler takes for granted, and none is a `show`.
-/

namespace AutoTest

open CString Strtok Program

/-! ## The state two histories are compared by -/

def Net.core (s : Net) : Net := { s with closed := [] }

/-- Without the name of the last configuration file, and without what the model
records of closed sockets and no operation reads. -/
def Shared.core (s : Shared) : Shared := { s with gConfFileName := [], net := s.net.core }

/-- The answers of the host and the output start again. -/
def World.rewound (w : World) : World :=
  { w with shared :=
    { w.shared with calls := 0, out := [], net := { w.shared.net with socketCalls := 0 } } }

/-- The answer and the state that is left. -/
def outcome {α : Type} : Except Fault (α × World) → Except Fault (α × Shared)
  | .ok (a, w) => .ok (a, w.shared.core)
  | .error f => .error f

def sharedOutcome {α : Type} : Except Fault (α × Shared) → Except Fault (α × Shared)
  | .ok (a, s) => .ok (a, s.core)
  | .error f => .error f

namespace Net

variable (s : Net) (clientNum : Int)

theorem setClientFlag_core (flag : Int) :
    (s.setClientFlag clientNum flag).core = s.core.setClientFlag clientNum flag := by
  unfold setClientFlag
  cases clientIndex clientNum <;> rfl

theorem setClientSockAddr_core (addr : SockAddr) :
    (s.setClientSockAddr clientNum addr).core = s.core.setClientSockAddr clientNum addr := by
  unfold setClientSockAddr
  cases clientIndex clientNum <;> rfl

theorem setClientIpAddr_core (ipAddr : Text) :
    (s.setClientIpAddr clientNum ipAddr).map core =
      (s.core.setClientIpAddr clientNum ipAddr).map core := by
  unfold setClientIpAddr
  cases clientIndex clientNum with
  | none => rfl
  | some n =>
    dsimp only
    split <;> rfl

theorem closeSocket_core :
    (s.closeSocket clientNum).map core = (s.core.closeSocket clientNum).map core := by
  unfold closeSocket
  cases clientIndex clientNum with
  | none => rfl
  | some n =>
    have same : s.core.gSockets = s.gSockets := rfl
    dsimp only
    rw [same]
    split <;> rfl

theorem networkConfig_core (inet : Inet) (answer : Nat → Int) (ipAddr : Text) :
    (s.networkConfig inet answer clientNum ipAddr).map id core =
      (s.core.networkConfig inet answer clientNum ipAddr).map id core := by
  have flags : s.core.gClientFlag = s.gClientFlag := rfl
  have fds : s.core.fds = s.fds := rfl
  have calls : s.core.socketCalls = s.socketCalls := rfl
  unfold networkConfig
  cases clientIndex clientNum with
  | none => rfl
  | some n =>
    dsimp only [socket]
    rw [flags, fds, calls]
    repeat' split
    all_goals simp only [Prod.map, setClientSockAddr_core]
    all_goals rfl

end Net

theorem reading_core {α : Type} (s : Shared) (x : Except Fault α) :
    sharedOutcome (reading s x) = sharedOutcome (reading s.core x) := by
  cases x <;> rfl

theorem writing_core {τ : Type} {put put' : τ → Shared} {x x' : Except Fault τ}
    (same : x.map (fun t => (put t).core) = x'.map fun t => (put' t).core) :
    sharedOutcome (writing put x) = sharedOutcome (writing put' x') := by
  cases x <;> cases x' <;> simp_all [Except.map, writing, sharedOutcome]

theorem sharedStep_core (host : Host) {o : Op} (forgets : o.group ≠ .config) (s : Shared) :
    sharedOutcome (sharedStep host o s) = sharedOutcome (sharedStep host o s.core) := by
  have onNet {x x' : Except Fault Net} (same : x.map Net.core = x'.map Net.core) :
      x.map (fun net => { s with net := net }.core) =
        x'.map (fun net => { s.core with net := net }.core) := by
    cases x <;> cases x' <;> simp_all [Except.map, Shared.core]
  cases o with
  | setClientFlag n flag =>
    simp only [sharedStep, sharedOutcome, Shared.core, Net.setClientFlag_core]
    rfl
  | delClientSockAddr n =>
    simp only [sharedStep, sharedOutcome, Shared.core, Net.delClientSockAddr,
      Net.setClientSockAddr_core]
    rfl
  | setClientIpAddr n ipAddr => exact writing_core (onNet (s.net.setClientIpAddr_core n ipAddr))
  | closeSocket n => exact writing_core (onNet (s.net.closeSocket_core n))
  | getClientIpAddr n =>
    have same : s.core.net.getClientIpAddr n = s.net.getClientIpAddr n := rfl
    simp only [sharedStep, same]
    cases s.net.getClientIpAddr n <;> rfl
  | networkConfig n ipAddr =>
    have same := s.net.networkConfig_core n host.inet host.socket ipAddr
    simp only [Prod.map, Prod.mk.injEq, id] at same
    simp [sharedStep, sharedOutcome, Shared.core, same]
  | changeClientAddr n ipAddr =>
    have same := s.net.networkConfig_core n host.inet host.socket ipAddr
    simp only [Prod.map, Prod.mk.injEq, id] at same
    simp only [sharedStep, Net.changeClientAddr]
    generalize s.net.networkConfig host.inet host.socket n ipAddr = x at same
    have core : s.core.net = s.net.core := rfl
    rw [core]
    generalize s.net.core.networkConfig host.inet host.socket n ipAddr = y at same
    obtain ⟨stat, net⟩ := x
    obtain ⟨stat', net'⟩ := y
    obtain ⟨rfl, same⟩ := same
    cases stat <;> simp [sharedOutcome, Shared.core, same]
  | pthreadCreate routine =>
    have joins : s.core.joinable = s.joinable := rfl
    have calls : s.core.calls = s.calls := rfl
    simp only [sharedStep, Shared.pthreadCreate, joins, calls]
    cases host.pthreadCreate s.calls with
    | none => rfl
    | some id =>
      dsimp only
      split <;> rfl
  | pthreadKill id =>
    have joins : s.core.joinable = s.joinable := rfl
    simp only [sharedStep, joins]
    split <;> rfl
  | pthreadJoin id =>
    have joins : s.core.joinable = s.joinable := rfl
    simp only [sharedStep, Shared.pthreadJoin, joins]
    split <;> rfl
  | setCountOfSuccessCall type n value =>
    simp only [sharedStep, Shared.setCountOfSuccessCall]
    split
    · rfl
    · cases clientIndex n with
      | none => rfl
      | some n =>
        dsimp only
        split <;> rfl
  | msgsnd m =>
    have sends : s.core.sends host = s.sends host := rfl
    simp only [sharedStep, sends]
    split <;> rfl
  | printConfFileName => exact absurd rfl forgets
  | mallocScript slot =>
    have calls : s.core.calls = s.calls := rfl
    have scripts : s.core.scripts = s.scripts := rfl
    simp only [sharedStep, calls, scripts]
    split
    · cases s.scripts.mallocScript slot <;> rfl
    · cases s.scripts.freeScript slot <;> rfl
  | _ => first | rfl | exact reading_core s _ | exact writing_core rfl

/-! ## Runs of tidy handlers -/

section Runs

variable {host : Host} {callee callee' : Text → World → Except Fault World} {c : Setting}
  {argv : List Text} {fresh : Bool} {α : Type}

def effect : Except Fault World → Except Fault Shared
  | .ok w => .ok w.shared.core
  | .error f => .error f

/-- What every operation but those on tokens and nested lines does. -/
theorem interp_silent {o : Op} (silent : o.Silent) (w : World) :
    interp host callee o w = match sharedStep host o w.shared with
      | .ok (r, s) => .ok (r, { w with shared := s })
      | .error f => .error f := by
  cases o <;> first | rfl | exact silent.elim

theorem interp_silent_ok {o : Op} (silent : o.Silent) {w v : World} {r : o.Res}
    (h : interp host callee o w = .ok (r, v)) :
    sharedStep host o w.shared = .ok (r, v.shared) ∧ v.params = w.params := by
  rw [interp_silent silent] at h
  cases hstep : sharedStep host o w.shared with
  | error f => simp [hstep] at h
  | ok rs =>
    obtain ⟨rfl, rfl⟩ : rs.1 = r ∧ { w with shared := rs.2 } = v := by simpa [hstep] using h
    exact ⟨rfl, rfl⟩

theorem fopen_answers {name : Text} {s s' : Shared} {r : Option Text}
    (h : sharedStep host (.fopen name) s = .ok (r, s')) : r = host.files name := by
  simp only [sharedStep, Except.ok.injEq, Prod.mk.injEq] at h
  exact h.1.symm

/-- The tokens stay readable until an operation that spoils them. -/
theorem Op.Within.step (files : c.files = host.files) {o : Op} (within : o.Within c argv fresh)
    {old : Params} {w v : World} (loaded : fresh = true → Params.Loaded argv old w.params)
    {r : o.Res} (h : interp host callee o w = .ok (r, v)) : o.Answers c argv r ∧
      ((fresh && !o.spoils c.threads) = true → Params.Loaded argv old v.params) := by
  have others (silent : o.Silent) :
      (fresh && !o.spoils c.threads) = true → Params.Loaded argv old v.params := by
    intro hfresh
    rw [(interp_silent_ok silent h).2]
    exact loaded (Bool.and_eq_true_iff.mp hfresh).1
  have spoilt (line : o.retokenises = true) :
      (fresh && !o.spoils c.threads) = true → Params.Loaded argv old v.params := by
    simp [Op.spoils, line]
  cases o with
  | setParams line => exact within.elim
  | call line => exact ⟨trivial, spoilt rfl⟩
  | getTokens inStr delim => exact ⟨trivial, spoilt rfl⟩
  | paramNum =>
    have hload := loaded within
    obtain ⟨rfl, rfl⟩ : w.params.gParamNum = r ∧ w = v := by simpa [interp] using h
    exact ⟨hload.count, fun _ => hload⟩
  | param i =>
    have hload := loaded within.1
    have inside : i < argv.length := within.2
    have hown := hload.own i inside
    obtain ⟨rfl, rfl⟩ : argv[i] = r ∧ w = v := by simpa [interp, reading, hown] using h
    exact ⟨List.getElem?_eq_getElem inside, fun _ => hload⟩
  | fopen name =>
    refine ⟨?_, others trivial⟩
    have silent : (Op.fopen name).Silent := trivial
    have opened := fopen_answers (interp_silent_ok silent h).1
    exact opened.trans (congrFun files.symm name)
  | _ => exact ⟨trivial, others trivial⟩

/-- A callee that does the same to states with the same core. -/
def Respects (callee : Text → World → Except Fault World) (line : Text) : Prop :=
  ∀ w₁ w₂ : World, w₁.shared.core = w₂.shared.core → effect (callee line w₁) = effect (callee line w₂)

theorem Op.Within.core (respects : ∀ line, c.line line → Respects callee line) {o : Op}
    (within : o.Within c argv fresh) (forgets : o.group ≠ .config)
    {old₁ old₂ : Params} {w₁ w₂ : World} (core : w₁.shared.core = w₂.shared.core)
    (loaded₁ : fresh = true → Params.Loaded argv old₁ w₁.params)
    (loaded₂ : fresh = true → Params.Loaded argv old₂ w₂.params) :
    outcome (interp host callee o w₁) = outcome (interp host callee o w₂) := by
  have others (silent : o.Silent) :
      outcome (interp host callee o w₁) = outcome (interp host callee o w₂) := by
    have same : sharedOutcome (sharedStep host o w₁.shared) =
        sharedOutcome (sharedStep host o w₂.shared) := by
      rw [sharedStep_core host forgets, core, ← sharedStep_core host forgets]
    rw [interp_silent silent, interp_silent silent]
    cases h₁ : sharedStep host o w₁.shared <;> cases h₂ : sharedStep host o w₂.shared <;>
      simp_all [sharedOutcome, outcome]
  cases o with
  | setParams line => exact within.elim
  | call line =>
    have same := respects line within w₁ w₂ core
    simp only [interp]
    cases h₁ : callee line w₁ <;> cases h₂ : callee line w₂ <;>
      simp_all [effect, outcome, writing]
  | getTokens inStr delim =>
    simp only [interp, Params.getTokens]
    cases CString.snprintf maxScContent inStr with
    | none => rfl
    | some t => simp [outcome, core]
  | paramNum =>
    have count₁ := (loaded₁ within).count
    have count₂ := (loaded₂ within).count
    simp [interp, outcome, core, count₁, count₂]
  | param i =>
    have inside : i < argv.length := within.2
    have own₁ := (loaded₁ within.1).own i inside
    have own₂ := (loaded₂ within.1).own i inside
    simp [interp, reading, outcome, core, own₁, own₂]
  | _ => exact others trivial

/-- What earlier lines left in the token array makes no difference. -/
theorem Tidy.run_core (files : c.files = host.files)
    (respects : ∀ line, c.line line → Respects callee line) {p : Cmd α} (tidy : p.Tidy c argv fresh)
    (forgets : p.Only fun o : Op => o.group ≠ .config) {old₁ old₂ : Params} {w₁ w₂ : World}
    (core : w₁.shared.core = w₂.shared.core)
    (loaded₁ : fresh = true → Params.Loaded argv old₁ w₁.params)
    (loaded₂ : fresh = true → Params.Loaded argv old₂ w₂.params) :
    outcome (p.run (interp host callee) w₁) = outcome (p.run (interp host callee) w₂) := by
  induction p generalizing fresh w₁ w₂ with
  | pure a => simp [outcome, core]
  | op o k ih =>
    have same : outcome (interp host callee o w₁) = outcome (interp host callee o w₂) :=
      tidy.1.core respects forgets.1 core loaded₁ loaded₂
    cases h₁ : interp host callee o w₁ with
    | error f =>
      cases h₂ : interp host callee o w₂ with
      | error g =>
        simp only [h₁, h₂, outcome, Except.error.injEq] at same
        simp only [Prog.run_op_error h₁, Prog.run_op_error h₂, same]
      | ok rw₂ => simp [h₁, h₂, outcome] at same
    | ok rw₁ =>
      cases h₂ : interp host callee o w₂ with
      | error g => simp [h₁, h₂, outcome] at same
      | ok rw₂ =>
        obtain ⟨r, v₁⟩ := rw₁
        obtain ⟨r', v₂⟩ := rw₂
        simp only [h₁, h₂, outcome, Except.ok.injEq, Prod.mk.injEq] at same
        obtain ⟨rfl, core'⟩ := same
        obtain ⟨answers, next₁⟩ := tidy.1.step files loaded₁ h₁
        obtain ⟨-, next₂⟩ := tidy.1.step files loaded₂ h₂
        rw [Prog.run_op_ok h₁, Prog.run_op_ok h₂]
        exact ih r (tidy.2 r answers) (forgets.2 r) core' next₁ next₂

end Runs

/-! ## Reads of own entries -/

/-- As `interp`, but only an entry of the current line can be read. -/
def ownReads (host : Host) (callee : Text → World → Except Fault World) : Interp cmdSig Fault World
  | .param i, w =>
    if (i : Int) ≤ w.params.gParamNum ∧ (w.params.gCmdParam i).isSome then
      interp host callee (.param i) w
    else .error .bounds
  | o, w => interp host callee o w

def execOwn (host : Host) : Nat → Text → World → Except Fault World
  | 0, _, _ => .error .diverge
  | depth + 1, line, w =>
    match (cmdProc line).run (ownReads host (execOwn host depth)) w with
    | .ok (_, w) => .ok w
    | .error f => .error f

section Own

variable {host : Host} {callee callee' : Text → World → Except Fault World} {c : Setting}
  {argv : List Text} {fresh : Bool} {α : Type}

theorem Params.Loaded.entry {old p : Params} (loaded : Loaded argv old p) {i : Nat}
    (hi : i < argv.length) : (i : Int) ≤ p.gParamNum ∧ (p.gCmdParam i).isSome := by
  have count := loaded.count
  have own := loaded.own i hi
  refine ⟨by omega, ?_⟩
  cases hentry : p.gCmdParam i with
  | none => simp [Params.param, hentry] at own
  | some offset => rfl

theorem Op.Within.own (agree : ∀ line, c.line line → ∀ w, callee line w = callee' line w) {o : Op}
    (within : o.Within c argv fresh) {old : Params} {w : World}
    (loaded : fresh = true → Params.Loaded argv old w.params) :
    ownReads host callee o w = interp host callee' o w := by
  cases o with
  | setParams line => exact within.elim
  | call line => simp only [ownReads, interp, agree line within]
  | param i =>
    have entry := (loaded within.1).entry within.2
    simp only [ownReads, entry, and_self, ↓reduceIte]
    rfl
  | _ => rfl

theorem Tidy.run_own (files : c.files = host.files)
    (agree : ∀ line, c.line line → ∀ w, callee line w = callee' line w) {p : Cmd α}
    (tidy : p.Tidy c argv fresh) {old : Params} {w : World}
    (loaded : fresh = true → Params.Loaded argv old w.params) :
    p.run (ownReads host callee) w = p.run (interp host callee') w := by
  induction p generalizing fresh w with
  | pure a => rfl
  | op o k ih =>
    have same : ownReads host callee o w = interp host callee' o w := tidy.1.own agree loaded
    cases hstep : interp host callee' o w with
    | error f => rw [Prog.run_op_error hstep, Prog.run_op_error (same.trans hstep)]
    | ok rv =>
      obtain ⟨answers, next⟩ := tidy.1.step files loaded hstep
      rw [Prog.run_op_ok hstep, Prog.run_op_ok (same.trans hstep)]
      exact ih rv.1 (tidy.2 rv.1 answers) next

end Own

/-! ## Lines that supply their tokens -/

/-- The tokens of the line are those its handler takes for granted. -/
def SuppliedLine (line : Text) : Prop := ∀ argv, lineTokens line = some argv → Supplied argv

instance (line : Text) : Decidable (SuppliedLine line) :=
  inferInstanceAs (Decidable (∀ argv ∈ lineTokens line, Supplied argv))

/-- The lines typed or read from configuration files, processed one at a time. -/
def typed (env : Host) (lines : Text → Prop) : Setting := ⟨false, env.files, lines⟩

theorem cmdProc_loaded {line : Text} {w : World} {p : Params} (hload : w.params.load line = .ok p)
    {host : Host} {callee : Text → World → Except Fault World} :
    (cmdProc line).run (interp host callee) w =
      (Cmd.param 0 >>= dispatch).run (interp host callee) { w with params := p } := by
  simp [cmdProc, Cmd.setParams, Prog.run, interp, writing, hload]

theorem param_run {env : Host} {callee : Text → World → Except Fault World} {w : World}
    {α : Type} {i : Nat} {t : Text} (own : w.params.param i = .ok t) (f : Text → Cmd α) :
    (Cmd.param i >>= f).run (interp env callee) w = (f t).run (interp env callee) w := by
  have read : interp env callee (.param i) w = .ok (t, w) := by simp only [interp, own, reading]
  rw [Cmd.param, Prog.op_bind, Prog.run_op_ok read, Prog.pure_bind']

theorem effect_of_outcome {x y : Except Fault (Unit × World)} (h : outcome x = outcome y) :
    effect (x.map Prod.snd) = effect (y.map Prod.snd) := by
  cases x <;> cases y <;> simp_all [outcome, effect, Except.map]

theorem perform_map (host : Host) (callee : Text → World → Except Fault World) (p : Cmd Unit)
    (w : World) : perform host callee p w = (p.run (interp host callee) w).map Prod.snd := by
  unfold perform
  cases p.run (interp host callee) w <;> rfl

theorem first_tidy {c : Setting} (closed : c.Closed) {argv : List Text} (supplied : Supplied argv)
    (once : c.threads = true → ¬ Rereads argv) : (Cmd.param 0 >>= dispatch).Tidy c argv true := by
  have ⟨name, first, _⟩ := supplied
  have inside : 0 < argv.length := by
    cases argv with
    | nil => cases first
    | cons name argv => simp
  have hname : argv[0] = name := by
    simpa [List.head?_eq_getElem?, List.getElem?_eq_getElem inside] using first
  exact .param inside (dispatch_tidy closed (hname ▸ first) supplied once)

/-- A line that lists the clients and scripts, and before them the name of the
last configuration file. -/
def ShowLine (line : Text) : Prop :=
  ∃ name args cmdNum, lineTokens line = some (name :: args) ∧ getCmdCode name = some cmdNum ∧
    (cmdEntry cmdNum).func = .showClient

theorem dispatch_forgets {name : Text}
    (other : ∀ cmdNum, getCmdCode name = some cmdNum → (cmdEntry cmdNum).func ≠ .showClient) :
    (dispatch name).Only fun o : Op => o.group ≠ .config := by
  unfold dispatch
  cases code : getCmdCode name with
  | none => exact ⟨by decide, fun _ => trivial⟩
  | some cmdNum =>
    apply Prog.Only.mono _ ((cmdEntry cmdNum).func.run_touches cmdNum)
    have aside : Group.config ∉ (cmdEntry cmdNum).func.groups := by
      have listed := other cmdNum code
      generalize (cmdEntry cmdNum).func = f at listed
      cases f <;> simp [Func.groups] at listed ⊢
    intro o inside config
    exact aside (config ▸ inside)

section Supplied

variable {env : Host} {lines : Text → Prop} (closed : (typed env lines).Closed)
  (supplied : ∀ line, lines line → SuppliedLine line)

include closed supplied

theorem exec_core (forgets : ∀ line, lines line → ¬ ShowLine line) (depth : Nat) {line : Text}
    (hline : lines line) : Respects (exec env depth) line := by
  induction depth generalizing line with
  | zero => exact fun _ _ _ => rfl
  | succ depth ih =>
    intro w₁ w₂ core
    simp only [exec, perform_map]
    apply effect_of_outcome
    cases tokens : lineTokens line with
    | none => rw [cmdProc_undefined tokens, cmdProc_undefined tokens]
    | some argv =>
      obtain ⟨p₁, hload₁, loaded₁⟩ := Params.load_own tokens w₁.params
      obtain ⟨p₂, hload₂, loaded₂⟩ := Params.load_own tokens w₂.params
      have own := supplied line hline argv tokens
      obtain ⟨name, args, rfl⟩ : ∃ name args, argv = name :: args := by
        obtain ⟨name, first, -⟩ := own
        cases argv with
        | nil => cases first
        | cons name args => exact ⟨name, args, rfl⟩
      have first₁ : p₁.param 0 = .ok name := loaded₁.own 0 (by simp)
      have first₂ : p₂.param 0 = .ok name := loaded₂.own 0 (by simp)
      have quiet : (dispatch name).Only fun o : Op => o.group ≠ .config :=
        dispatch_forgets fun cmdNum code func => forgets line hline ⟨name, args, cmdNum,
          tokens, code, func⟩
      rw [cmdProc_loaded hload₁, cmdProc_loaded hload₂,
        param_run (w := { w₁ with params := p₁ }) first₁,
        param_run (w := { w₂ with params := p₂ }) first₂]
      have tidy : (dispatch name).Tidy (typed env lines) (name :: args) true :=
        dispatch_tidy closed rfl own (by intro among; cases among)
      exact Tidy.run_core rfl (fun line hline => ih hline) tidy quiet core (fun _ => loaded₁)
        fun _ => loaded₂

theorem exec_own (depth : Nat) {line : Text} (hline : lines line) (w : World) :
    execOwn env depth line w = exec env depth line w := by
  induction depth generalizing line w with
  | zero => rfl
  | succ depth ih =>
    have agree : ∀ line, lines line → ∀ w, execOwn env depth line w = exec env depth line w :=
      fun line hline w => ih hline w
    have same : (cmdProc line).run (ownReads env (execOwn env depth)) w =
        (cmdProc line).run (interp env (exec env depth)) w := by
      cases tokens : lineTokens line with
      | none =>
        rw [cmdProc_undefined tokens]
        simp [cmdProc, Cmd.setParams, Prog.run, ownReads, interp, writing, load_undefined tokens]
      | some argv =>
        obtain ⟨p, hload, loaded⟩ := Params.load_own tokens w.params
        have tidy := first_tidy closed (supplied line hline argv tokens) (by intro among; cases among)
        rw [cmdProc_loaded hload, ← Tidy.run_own rfl agree tidy fun _ => loaded]
        simp [cmdProc, Cmd.setParams, Prog.run, ownReads, interp, writing, hload]
    cases hrun : (cmdProc line).run (interp env (exec env depth)) w <;>
      simp only [execOwn, same, exec, perform, hrun]

end Supplied

/-! ## Lines that do not -/

def World.start (fds : Int → Option Holder) : World := ⟨.initial, .initial fds⟩

/-- A first token that is no command is only reported. -/
theorem run_unknown {host : Host} {callee : Text → World → Except Fault World} {w : World}
    {name : Text} (hname : w.params.param 0 = .ok name) (unknown : getCmdCode name = none) :
    (Cmd.param 0 >>= dispatch).run (interp host callee) w =
      .ok ((), { w with shared :=
        { w.shared with out := w.shared.out ++ ["cmd not found!\n".toList] } }) := by
  have hdispatch : dispatch name = Cmd.print "cmd not found!\n".toList := by
    simp only [dispatch, unknown]
    rfl
  have read : interp host callee (.param 0) w = .ok (name, w) := by
    simp only [interp, hname, reading]
  rw [Cmd.param, Prog.op_bind, Prog.run_op_ok read, Prog.pure_bind', hdispatch]
  rfl

/-- A line of three tokens that end the text of a full buffer. -/
def farLine : Text := List.replicate 250 ' ' ++ "x 1 2".toList

theorem far_entries : (Params.initial.load farLine).toOption.map
    (fun p => (p.gCmdParam 0, p.gCmdParam 1, p.gCmdParam 2)) =
      some (some 250, some 252, some 254) := by
  decide +kernel

/-- It leaves three entries set and nothing else changed. -/
theorem far_history (host : Host) (fds : Int → Option Holder) :
    ∃ w, runAll (exec host 1) [farLine] (.start fds) = .ok w ∧
      w.rewound.shared.core = (World.start fds).rewound.shared.core ∧
      ∀ i < 3, w.params.gCmdParam i = some (250 + 2 * i) := by
  have tokens : lineTokens farLine = some ["x".toList, "1".toList, "2".toList] := by decide +kernel
  obtain ⟨p, hload, loaded⟩ := Params.load_own tokens Params.initial
  have hload' : (World.start fds).params.load farLine = .ok p := hload
  have hname : p.param 0 = .ok "x".toList := loaded.own 0 (by simp)
  have hrun : exec host 1 farLine (.start fds) = .ok ⟨p, { Shared.initial fds with
      out := ["cmd not found!\n".toList] }⟩ := by
    rw [exec, perform, cmdProc_loaded hload',
      run_unknown (w := { World.start fds with params := p }) hname
      (by decide)]
    rfl
  have once : runAll (exec host 1) [farLine] (.start fds) = exec host 1 farLine (.start fds) := by
    rw [runAll, hrun]
    rfl
  refine ⟨_, once.trans hrun, rfl, ?_⟩
  have entries := far_entries
  rw [hload] at entries
  simp only [Except.toOption, Option.map_some, Option.some.injEq, Prod.mk.injEq] at entries
  intro i hi
  obtain rfl | rfl | rfl : i = 0 ∨ i = 1 ∨ i = 2 := by omega
  · exact entries.1
  · exact entries.2.1
  · exact entries.2.2

/-- The ways in which a line leaves a token to earlier ones. -/
theorem not_supplied {argv : List Text} (h : ¬ Supplied argv) : argv = [] ∨
    (∃ name, argv = [name] ∧
      ∃ cmdNum, getCmdCode name = some cmdNum ∧ (cmdEntry cmdNum).func = .delClient) ∨
    ∃ name mode, argv = [name, mode] ∧ mode ∉ plainModes ∧
      ∃ cmdNum, getCmdCode name = some cmdNum ∧ (cmdEntry cmdNum).func = .stop := by
  cases argv with
  | nil => exact .inl rfl
  | cons name rest =>
    right
    obtain ⟨cmdNum, code, missing⟩ : ∃ cmdNum, getCmdCode name = some cmdNum ∧
        ¬ (cmdEntry cmdNum).func.Supplied (name :: rest) := by
      apply Classical.by_contradiction
      intro other
      exact h ⟨name, rfl, fun cmdNum code => Classical.by_contradiction fun missing =>
        other ⟨cmdNum, code, missing⟩⟩
    cases hfunc : (cmdEntry cmdNum).func with
    | delClient =>
      rw [hfunc] at missing
      have alone : rest = [] := by
        cases rest with
        | nil => rfl
        | cons t rest => exact absurd (by simp [Func.Supplied]) missing
      exact .inl ⟨name, by rw [alone], cmdNum, code, hfunc⟩
    | stop =>
      rw [hfunc] at missing
      simp only [Func.Supplied, Classical.not_imp, not_exists, not_and] at missing
      obtain ⟨two, noMode⟩ := missing
      match rest, two with
      | [mode], _ =>
        refine .inr ⟨name, mode, rfl, fun hmem => ?_, cmdNum, code, hfunc⟩
        exact noMode mode hmem rfl
    | _ =>
      rw [hfunc] at missing
      exact absurd trivial missing

section Unsupplied

variable {env : Host} {callee : Text → World → Except Fault World} {w : World} {argv : List Text}

theorem dispatch_run {name : Text} {cmdNum : Nat} (hname : w.params.param 0 = .ok name)
    (code : getCmdCode name = some cmdNum) :
    (Cmd.param 0 >>= dispatch).run (interp env callee) w =
      ((cmdEntry cmdNum).func.run cmdNum).run (interp env callee) w := by
  have hdispatch : dispatch name = (cmdEntry cmdNum).func.run cmdNum := by
    simp only [dispatch, code]
  have read : interp env callee (.param 0) w = .ok (name, w) := by
    simp only [interp, hname, reading]
  rw [Cmd.param, Prog.op_bind, Prog.run_op_ok read, Prog.pure_bind', hdispatch]

theorem wrongParameter_run (cmdNum : Nat) (w : World) :
    ∃ w', (wrongParameter cmdNum).run (interp env callee) w = .ok ((), w') := ⟨_, rfl⟩

theorem param_unset {α : Type} {i : Nat} (unset : w.params.param i = .error .unset)
    (f : Text → Cmd α) : (Cmd.param i >>= f).run (interp env callee) w = .error .unset := by
  have read : interp env callee (.param i) w = .error .unset := by simp only [interp, unset, reading]
  rw [Cmd.param, Prog.op_bind, Prog.run_op_error read]

theorem paramNum_run {α : Type} (f : Int → Cmd α) :
    (Cmd.paramNum >>= f).run (interp env callee) w = (f w.params.gParamNum).run
      (interp env callee) w :=
  rfl

theorem delClient_stale (cmdNum : Nat) {t : Text} (stale : w.params.param 1 = .ok t)
    (count : w.params.gParamNum = 0) :
    ∃ w', (delClient cmdNum).run (interp env callee) w = .ok ((), w') := by
  obtain ⟨w', hrun⟩ : ∃ w', (wrongParameter cmdNum).run (interp env callee) w = .ok ((), w') :=
    wrongParameter_run cmdNum w
  refine ⟨w', ?_⟩
  rw [delClient, param_run stale, paramNum_run, count, if_pos (.inl (by decide)), hrun]

/-- With one argument that is no mode, `stop` reads a second. -/
theorem stop_reads (cmdNum : Nat) {mode : Text} (other : mode ∉ plainModes)
    (own : w.params.param 1 = .ok mode) (count : w.params.gParamNum = 1) : ∃ f : Text → Cmd Unit,
      (stop cmdNum).run (interp env callee) w = (Cmd.param 2 >>= f).run (interp env callee) w ∧
      ∀ t ≠ paramSc, f t = wrongParameter cmdNum := by
  simp only [plainModes, List.mem_cons, List.not_mem_nil, or_false, not_or] at other
  obtain ⟨notAll, notTest, notRec⟩ := other
  have send : interp env callee .getSendThreadID w = .ok (w.shared.thrCmdSendId, w) := rfl
  have rcv : interp env callee .getRecThreadID w = .ok (w.shared.thrRetReceiveId, w) := rfl
  rw [stop, Cmd.getSendThreadID, Prog.op_bind, Prog.run_op_ok send, Prog.pure_bind',
    Cmd.getRecThreadID,
    Prog.op_bind, Prog.run_op_ok rcv, Prog.pure_bind', paramNum_run, count, if_neg (by decide),
    param_run own, if_neg notAll, if_neg notTest, if_neg notRec]
  refine ⟨_, rfl, ?_⟩
  intro t notScript
  rw [if_neg notScript]

theorem load_length {line : Text} {old p : Params} (h : old.load line = .ok p) :
    p.tmp.length ≤ 255 := by
  unfold Params.load at h
  cases copy : CString.snprintf maxScContent line with
  | none => simp [copy] at h
  | some t =>
    have short := snprintf_length copy
    have cut := length_splitWords cSpace maxToken (cells t) 0
    simp only [copy, Except.ok.injEq] at h
    simp only [← h, cut, length_cells]
    exact short

theorem unknown_blank {t : Text} (blank : ∀ c ∈ t, c = ' ') : getCmdCode t = none := by
  have named : (gCmdLib.all fun e => e.cmdName.any (· ≠ ' ') && e.nickName.any (· ≠ ' ')) = true := by
    decide +kernel
  rw [getCmdCode, List.findIdx?_eq_none_iff]
  intro e he
  have both := List.all_eq_true.mp named e he
  simp only [Bool.and_eq_true, List.any_eq_true, decide_eq_true_eq] at both
  obtain ⟨⟨c, hc, char⟩, d, hd, char'⟩ := both
  have notName : e.cmdName ≠ t := by
    rintro rfl
    exact char (blank c hc)
  have notNick : e.nickName ≠ t := by
    rintro rfl
    exact char' (blank d hd)
  simp [notName, notNick]

/-- A line of spaces leaves spaces behind every offset. -/
theorem blank_tmp {line : Text} (tokens : lineTokens line = some []) {old p : Params}
    (h : old.load line = .ok p) (i : Nat) : ∀ c ∈ stringAt p.tmp i, c = ' ' := by
  unfold lineTokens at tokens
  unfold Params.load at h
  cases copy : CString.snprintf maxScContent line with
  | none => simp [copy] at tokens
  | some t =>
    have noWord : words cSpace t = [] := by simpa [copy, maxToken] using tokens
    obtain ⟨uncut, blank⟩ := splitWords_blank noWord maxToken
    simp only [copy, uncut, Except.ok.injEq] at h
    intro c hc
    have hread : stringAt (cells t) i = t.drop i := by
      rw [stringAt, cells, ← List.map_drop]
      exact cstring_cells _
    rw [← h] at hc
    simp only [hread] at hc
    exact List.mem_singleton.mp (blank c (List.mem_of_mem_drop hc))

end Unsupplied

section Differ

variable {env : Host} {line : Text} {argv : List Text}

/-- From the start an entry no line has set is read. -/
theorem exec_unset (tokens : lineTokens line = some argv) (missing : ¬ Supplied argv) {w : World}
    (initial : w.params = .initial) : exec env 1 line w = .error .unset := by
  obtain ⟨p, hload, loaded⟩ := Params.load_own tokens w.params
  have unset {i : Nat} (hi : argv.length ≤ i) : p.param i = .error .unset := by
    simp [Params.param, loaded.stale i hi, initial, Params.initial]
  rw [exec, perform, cmdProc_loaded hload]
  rcases not_supplied missing with rfl | ⟨name, rfl, cmdNum, code, func⟩ |
    ⟨name, mode, rfl, other, cmdNum, code, func⟩
  · rw [param_unset (unset (by simp))]
  · have first : p.param 0 = .ok name := loaded.own 0 (by simp)
    rw [dispatch_run (w := { w with params := p }) first code, func, Func.run, delClient,
      param_unset (unset (by simp))]
  · have first : p.param 0 = .ok name := loaded.own 0 (by simp)
    have second : p.param 1 = .ok mode := loaded.own 1 (by simp)
    have count : p.gParamNum = 1 := by simpa using loaded.count
    obtain ⟨f, hreads, -⟩ := @stop_reads env (exec env 0) { w with params := p } cmdNum mode other
      second count
    rw [dispatch_run (w := { w with params := p }) first code, func, Func.run, hreads,
      param_unset (unset (by simp))]

/-- After a line of three tokens the entry of that line is read. -/
theorem exec_stale (tokens : lineTokens line = some argv) (missing : ¬ Supplied argv) {w : World}
    (entries : ∀ i < 3, w.params.gCmdParam i = some (250 + 2 * i)) :
    ∃ w', exec env 1 line w = .ok w' := by
  obtain ⟨p, hload, loaded⟩ := Params.load_own tokens w.params
  have stale {i : Nat} (hi : argv.length ≤ i) (h3 : i < 3) :
      p.param i = .ok (stringAt p.tmp (250 + 2 * i)) := by
    simp [Params.param, loaded.stale i hi, entries i h3]
  have finished {callee : Text → World → Except Fault World}
      (h : ∃ w', (Cmd.param 0 >>= dispatch).run (interp env callee) { w with params := p } =
        .ok ((), w')) : ∃ w', perform env callee (cmdProc line) w = .ok w' := by
    obtain ⟨w', hrun⟩ := h
    exact ⟨w', by rw [perform, cmdProc_loaded hload, hrun]⟩
  rw [exec]
  apply finished
  rcases not_supplied missing with rfl | ⟨name, rfl, cmdNum, code, func⟩ |
    ⟨name, mode, rfl, other, cmdNum, code, func⟩
  · have first := stale (i := 0) (by simp) (by omega)
    exact ⟨_, run_unknown (w := { w with params := p }) first
      (unknown_blank (blank_tmp tokens hload _))⟩
  · have first : p.param 0 = .ok name := loaded.own 0 (by simp)
    have second := stale (i := 1) (by simp) (by omega)
    have count : p.gParamNum = 0 := by simpa using loaded.count
    rw [dispatch_run (w := { w with params := p }) first code, func, Func.run]
    exact delClient_stale cmdNum second count
  · have first : p.param 0 = .ok name := loaded.own 0 (by simp)
    have second : p.param 1 = .ok mode := loaded.own 1 (by simp)
    have third := stale (i := 2) (by simp) (by omega)
    have count : p.gParamNum = 1 := by simpa using loaded.count
    have short : stringAt p.tmp (250 + 2 * 2) ≠ paramSc := by
      intro same
      have hlen := congrArg List.length same
      have bound := length_cstring_le (p.tmp.drop (250 + 2 * 2))
      have room := load_length hload
      simp only [stringAt] at hlen
      simp only [List.length_drop] at bound
      have six : paramSc.length = 6 := rfl
      omega
    obtain ⟨f, hreads, hf⟩ := @stop_reads env (exec env 0) { w with params := p } cmdNum mode other
      second count
    rw [dispatch_run (w := { w with params := p }) first code, func, Func.run, hreads,
      param_run (w := { w with params := p }) third, hf _ short]
    exact wrongParameter_run cmdNum _

end Differ

/-! ## The last configuration file -/

section Shown

variable {env : Host} {callee : Text → World → Except Fault World} {w : World}

/-- An operation that answers in every state, and prints if anything. -/
def Op.Lists : Op → Prop
  | .print _ | .lock | .unlock | .getClientFlag _ => True
  | .getClientIpAddr n | .getScriptThreadID n | .getScriptName n => (clientIndex n).isSome
  | _ => False

theorem lists_answers {o : Op} (lists : o.Lists) (w : World) :
    ∃ r v more, interp env callee o w = .ok (r, v) ∧ v.shared.out = w.shared.out ++ more := by
  cases o with
  | print t => exact ⟨(), _, [t], rfl, rfl⟩
  | lock => exact ⟨(), w, [], rfl, by simp⟩
  | unlock => exact ⟨(), w, [], rfl, by simp⟩
  | getClientFlag n => exact ⟨_, w, [], rfl, by simp⟩
  | getClientIpAddr n =>
    obtain ⟨i, inside⟩ := Option.isSome_iff_exists.mp lists
    refine ⟨cstring (w.shared.net.gClientIpAddr i), w, [], ?_, by simp⟩
    simp only [interp, sharedStep, Net.getClientIpAddr, inside, Option.map_some]
  | getScriptThreadID n =>
    obtain ⟨i, inside⟩ := Option.isSome_iff_exists.mp lists
    refine ⟨w.shared.scripts.thrScriptId i, w, [], ?_, by simp⟩
    simp only [interp, sharedStep, Scripts.getScriptThreadID, slotIndex, inside]
    rfl
  | getScriptName n =>
    obtain ⟨i, inside⟩ := Option.isSome_iff_exists.mp lists
    refine ⟨w.shared.scripts.gScriptName i, w, [], ?_, by simp⟩
    simp only [interp, sharedStep, Scripts.getScriptName, slotIndex, inside]
    rfl
  | _ => exact lists.elim

theorem lists_run {p : Cmd Unit} (lists : p.Only Op.Lists) (w : World) :
    ∃ v more, p.run (interp env callee) w = .ok ((), v) ∧ v.shared.out = w.shared.out ++ more := by
  induction p generalizing w with
  | pure a => exact ⟨w, [], rfl, by simp⟩
  | op o k ih =>
    obtain ⟨r, u, more, answer, out⟩ : ∃ r u more, interp env callee o w = .ok (r, u) ∧
        u.shared.out = w.shared.out ++ more := lists_answers lists.1 w
    obtain ⟨v, rest, hrun, out'⟩ := ih r (lists.2 r) u
    exact ⟨v, more ++ rest, (Prog.run_op_ok answer).trans hrun, by rw [out', out, List.append_assoc]⟩

theorem entries_list {f : Nat → Cmd Unit} (hf : ∀ index < 10, (f index).Only Op.Lists) {l : List Nat}
    (inside : ∀ index ∈ l, index < 10) : (Cmd.each l f).Only Op.Lists := by
  induction l with
  | nil => trivial
  | cons index l ih =>
    exact .bind (hf index (inside index (by simp))) fun _ => ih fun i hi => inside i (by simp [hi])

theorem client_inside {index : Nat} (h : index < 10) : (clientIndex index).isSome := by
  have bounds : minClient ≤ (index : Int) ∧ (index : Int) ≤ maxClient - 1 := by
    simp only [minClient, maxClient]
    omega
  simp only [clientIndex, dif_pos bounds, Option.isSome_some]

theorem showClientEntry_lists {index : Nat} (h : index < 10) :
    (showClientEntry index).Only Op.Lists := by
  have inside := client_inside h
  refine ⟨trivial, fun _ => ⟨trivial, fun _ => ⟨trivial, fun stat => ⟨trivial, fun _ => ?_⟩⟩⟩⟩
  exact .ite (fun _ => ⟨trivial, fun _ => trivial⟩) fun _ =>
    ⟨inside, fun _ => ⟨trivial, fun _ => trivial⟩⟩

theorem showScriptEntry_lists {index : Nat} (h : index < 10) :
    (showScriptEntry index).Only Op.Lists := by
  have inside := client_inside h
  refine ⟨trivial, fun _ => ⟨inside, fun id => ?_⟩⟩
  exact .ite (fun _ => ⟨trivial, fun _ => trivial⟩) fun _ =>
    ⟨inside, fun _ => ⟨trivial, fun _ => trivial⟩⟩

/-- What `showClient` prints before the name of the last configuration file. -/
def showTitle (cmdNum : Nat) (gParamNum : Int) : List Text :=
  if gParamNum > 0 then ["too many parameter!!\n".toList,
    (cmdEntry cmdNum).example' ++ "\n".toList] else []

/-- And what it prints after it. -/
def showEntries : Cmd Unit := do
  Cmd.say "client Parameter:\n"
  Cmd.each (List.range 10) showClientEntry
  Cmd.say "script Parameter:\n"
  Cmd.each (List.range 10) showScriptEntry

theorem showEntries_lists : showEntries.Only Op.Lists := by
  have inside : ∀ index ∈ List.range 10, index < 10 := fun _ => List.mem_range.mp
  unfold showEntries
  generalize List.range 10 = entries at inside
  refine .bind_op trivial fun _ =>
    (entries_list (fun _ => showClientEntry_lists) inside).bind fun _ => ?_
  exact .bind_op trivial fun _ => entries_list (fun _ => showScriptEntry_lists) inside

theorem showClient_prints (cmdNum : Nat) (w : World) : ∃ v more,
    (showClient cmdNum).run (interp env callee) w = .ok ((), v) ∧
      v.shared.out = w.shared.out ++ showTitle cmdNum w.params.gParamNum ++
        ("autoConf:  ".toList ++ w.shared.gConfFileName ++ "\n".toList) :: more := by
  have shown (u : World) : ∃ v more,
      (Cmd.printConfFileName >>= fun _ => showEntries).run (interp env callee) u = .ok ((), v) ∧
        v.shared.out = u.shared.out ++
          ("autoConf:  ".toList ++ u.shared.gConfFileName ++ "\n".toList) :: more := by
    let conf := "autoConf:  ".toList ++ u.shared.gConfFileName ++ "\n".toList
    let named : World := { u with shared := { u.shared with out := u.shared.out ++ [conf] } }
    obtain ⟨v, more, hrun, out⟩ : ∃ v more, showEntries.run (interp env callee) named = .ok ((), v) ∧
        v.shared.out = named.shared.out ++ more := lists_run showEntries_lists named
    exact ⟨v, more, hrun, by rw [out]; simp [named, conf]⟩
  unfold showClient
  rw [paramNum_run]
  by_cases many : w.params.gParamNum > 0
  · let titled : World := { w with shared :=
      { w.shared with out := w.shared.out ++ showTitle cmdNum w.params.gParamNum } }
    obtain ⟨v, more, hrun, out⟩ := shown titled
    refine ⟨v, more, ?_, out⟩
    rw [if_pos many, ← hrun]
    simp [titled, showTitle, many, Cmd.say, Cmd.printLine, Cmd.print, Prog.run, interp, sharedStep]
    rfl
  · obtain ⟨v, more, hrun, out⟩ := shown w
    refine ⟨v, more, ?_, by rw [out]; simp [showTitle, many]⟩
    rw [if_neg many]
    exact hrun

end Shown

/-! ## History independence -/

/-- After histories that leave the same state, the line has the same effect and
prints the same, whatever the host then answers. -/
def HistoryFree (env : Host) (fds : Int → Option Holder) (line : Text) : Prop :=
  ∀ host depth h₁ h₂ w₁ w₂, runAll (exec host depth) h₁ (.start fds) = .ok w₁ →
    runAll (exec host depth) h₂ (.start fds) = .ok w₂ →
    w₁.rewound.shared.core = w₂.rewound.shared.core →
    ∀ depth', effect (exec env depth' line w₁.rewound) = effect (exec env depth' line w₂.rewound)

/-- Nothing is read past the tokens of the line, nor an entry never set. -/
def OwnReads (env : Host) (line : Text) : Prop :=
  ∀ depth w, execOwn env depth line w = exec env depth line w

/-- No file can be opened. -/
def bareHost : Host := .willing (fun n => n) (fun n => some (n + 1)) fun _ => none

/-- A line that sets nothing but the name of the last configuration file. -/
theorem named_history (fds : Int → Option Holder) :
    ∃ w, runAll (exec bareHost 1) ["ac x".toList] (.start fds) = .ok w ∧
      w.rewound.shared.core = (World.start fds).rewound.shared.core ∧
      w.shared.gConfFileName = "x".toList := by
  have tokens : lineTokens "ac x".toList = some ["ac".toList, "x".toList] := by decide +kernel
  obtain ⟨p, hload, loaded⟩ := Params.load_own tokens Params.initial
  have hload' : (World.start fds).params.load "ac x".toList = .ok p := hload
  let opened : World := { World.start fds with params := p }
  have first : opened.params.param 0 = .ok "ac".toList := loaded.own 0 (by simp)
  have second : opened.params.param 1 = .ok "x".toList := loaded.own 1 (by simp)
  have code : getCmdCode "ac".toList = some 1 := by decide
  have copied : CString.snprintf maxFileName "x".toList = some "x".toList := by decide
  have one : ¬ opened.params.gParamNum ≠ 1 := by simp [opened, loaded.count]
  let named : World := { opened with shared := { opened.shared with gConfFileName := "x".toList } }
  have handled : (autoConfig 1).run (interp bareHost (exec bareHost 0)) opened = .ok ((), named) := by
    rw [autoConfig, paramNum_run, if_neg one, param_run second, Cmd.snprintf_some copied]
    rfl
  have hrun : exec bareHost 1 "ac x".toList (.start fds) = .ok named := by
    have handler : (cmdEntry 1).func.run 1 = autoConfig 1 := rfl
    rw [exec, perform, cmdProc_loaded hload', dispatch_run (w := opened) first code, handler, handled]
  refine ⟨named, ?_, rfl, rfl⟩
  rw [runAll, hrun]
  rfl

theorem show_differs {env : Host} {fds : Int → Option Holder} {line : Text} (shows : ShowLine line) :
    ¬ HistoryFree env fds line := by
  obtain ⟨name, args, cmdNum, tokens, code, func⟩ := shows
  have prints (w : World) : ∃ v more, exec env 1 line w = .ok v ∧ v.shared.out =
      w.shared.out ++ showTitle cmdNum args.length ++
        ("autoConf:  ".toList ++ w.shared.gConfFileName ++ "\n".toList) :: more := by
    obtain ⟨p, hload, loaded⟩ := Params.load_own tokens w.params
    have first : p.param 0 = .ok name := loaded.own 0 (by simp)
    have count : p.gParamNum = args.length := by simpa using loaded.count
    obtain ⟨v, more, hrun, out⟩ :=
      @showClient_prints env (exec env 0) cmdNum { w with params := p }
    refine ⟨v, more, ?_, count ▸ out⟩
    rw [exec, perform, cmdProc_loaded hload,
      dispatch_run (w := { w with params := p }) first code, func,
      Func.run, hrun]
  intro free
  obtain ⟨w, hrun, same, conf⟩ := named_history fds
  have both := free bareHost 1 [] ["ac x".toList] _ w rfl hrun same.symm 1
  obtain ⟨v₁, more₁, run₁, out₁⟩ := prints (World.start fds).rewound
  obtain ⟨v₂, more₂, run₂, out₂⟩ := prints w.rewound
  rw [run₁, run₂] at both
  have cores : v₁.shared.core = v₂.shared.core := Except.ok.inj both
  have outs : v₁.shared.core.out = v₂.shared.core.out := congrArg Shared.out cores
  replace outs : v₁.shared.out = v₂.shared.out := outs
  rw [out₁, out₂] at outs
  have unset : (World.start fds).rewound.shared.gConfFileName = [] := rfl
  have set : w.rewound.shared.gConfFileName = "x".toList := conf
  rw [unset, set] at outs
  simp only [World.rewound, List.nil_append, List.append_cancel_left_eq, List.cons.injEq] at outs
  exact absurd outs.1 (by decide)

/-- The lines typed or read from configuration files are independent of earlier
ones exactly when each has the tokens its handler takes for granted, and none
lists the clients. -/
theorem history_free_iff (env : Host) (fds : Int → Option Holder) (lines : Text → Prop)
    (closed : (typed env lines).Closed) :
    (∀ line, lines line → HistoryFree env fds line ∧ OwnReads env line) ↔
      ∀ line, lines line → SuppliedLine line ∧ ¬ ShowLine line := by
  constructor
  · intro free line hline
    refine ⟨fun argv tokens => ?_, fun shows => show_differs shows (free line hline).1⟩
    apply Classical.by_contradiction
    intro missing
    obtain ⟨w, hrun, same, entries⟩ := far_history env fds
    have both := (free line hline).1 env 1 [] [farLine] _ w rfl hrun same.symm 1
    obtain ⟨w', hstale⟩ : ∃ w', exec env 1 line w.rewound = .ok w' :=
      exec_stale tokens missing entries
    rw [exec_unset tokens missing (w := (World.start fds).rewound) rfl, hstale] at both
    cases both
  · intro given line hline
    have supplied (line : Text) (hline : lines line) : SuppliedLine line := (given line hline).1
    have forgets (line : Text) (hline : lines line) : ¬ ShowLine line := (given line hline).2
    refine ⟨?_, fun depth w => exec_own closed supplied depth hline w⟩
    intro host depth h₁ h₂ w₁ w₂ _ _ same depth'
    exact exec_core closed supplied forgets depth' hline _ _ same

theorem ioevt_supplied {argv : List Text} (first : argv.head? = some "ioevt".toList) :
    Supplied argv := by
  refine ⟨_, first, ?_⟩
  intro cmdNum code
  have seven : getCmdCode "ioevt".toList = some 7 := by decide
  obtain rfl : 7 = cmdNum := Option.some.inj (seven.symm.trans code)
  exact trivial

theorem ioevtLine_first {rest : Text} {argv : List Text}
    (tokens : lineTokens ("ioevt".toList ++ ' ' :: rest) = some argv) :
    argv.head? = some "ioevt".toList := by
  unfold lineTokens CString.snprintf at tokens
  rw [format_plain_append (by decide), format_cons (by decide)] at tokens
  cases hrest : format rest with
  | none => simp [hrest] at tokens
  | some t =>
    have cut : ("ioevt".toList ++ ' ' :: t).take (maxScContent - 1) =
        "ioevt".toList ++ ' ' :: t.take 249 := by
      rw [List.take_append, List.take_of_length_le (by decide)]
      rfl
    have word : words cSpace ("ioevt".toList ++ ' ' :: t.take 249) =
        "ioevt".toList :: words cSpace (t.take 249) :=
      words_cons (by simp [cSpace]) (by decide) (by decide) _
    simp only [hrest, Option.map_some, cut, word, maxToken, List.take_succ_cons,
      Option.some.injEq] at tokens
    rw [← tokens]
    rfl

theorem randomKeyLine_word (client keyName : Text) :
    ∃ rest, randomKeyLine client keyName = "ioevt".toList ++ ' ' :: rest := by
  have blank : "ioevt ".toList = "ioevt".toList ++ [' '] := by decide
  unfold randomKeyLine
  generalize "ioevt ".toList = front, "ioevt".toList = word, " p".toList = action at blank ⊢
  subst blank
  exact ⟨client ++ cSpace ++ keyName ++ action, by simp⟩

/-- The line of a random key has its own tokens, whatever the client. -/
theorem randomKeyLine_supplied (client keyName : Text) :
    SuppliedLine (randomKeyLine client keyName) := by
  obtain ⟨rest, word⟩ := randomKeyLine_word client keyName
  rw [word]
  exact fun argv tokens => ioevt_supplied (ioevtLine_first tokens)

theorem randomKeyLine_forgets (client keyName : Text) :
    ¬ ShowLine (randomKeyLine client keyName) := by
  obtain ⟨rest, word⟩ := randomKeyLine_word client keyName
  rw [word]
  rintro ⟨name, args, cmdNum, tokens, code, func⟩
  obtain rfl : name = "ioevt".toList := Option.some.inj (ioevtLine_first tokens)
  have seven : getCmdCode "ioevt".toList = some 7 := by decide
  obtain rfl : 7 = cmdNum := Option.some.inj (seven.symm.trans code)
  cases func

/-- Such a line is independent of the lines before it. -/
def Independent (line : Text) : Prop := SuppliedLine line ∧ ¬ ShowLine line

theorem bare_closed : (typed bareHost Independent).Closed :=
  ⟨fun _ _ opened => (nomatch opened),
    fun client _ => ⟨randomKeyLine_supplied client _, randomKeyLine_forgets client _⟩⟩

theorem call_history_free :
    HistoryFree bareHost (fun _ => none) "call 1 100".toList ∧
      OwnReads bareHost "call 1 100".toList := by
  have own : lineTokens "call 1 100".toList = some ["call".toList, "1".toList, "100".toList] := by
    decide +kernel
  have four : getCmdCode "call".toList = some 3 := by decide
  have supplied : SuppliedLine "call 1 100".toList := by decide +kernel
  have forgets : ¬ ShowLine "call 1 100".toList := by
    rintro ⟨name, args, cmdNum, tokens, code, func⟩
    obtain ⟨rfl, -⟩ := List.cons.inj (Option.some.inj (own.symm.trans tokens))
    obtain rfl : 3 = cmdNum := Option.some.inj (four.symm.trans code)
    cases func
  exact (history_free_iff bareHost (fun _ => none) Independent bare_closed).mpr (fun _ h => h) _
    ⟨supplied, forgets⟩

/-- Without an argument `del` is undefined at first, and a wrong parameter once
any line has had two tokens. -/
theorem del_history : ¬ HistoryFree bareHost (fun _ => none) "del".toList := by
  intro free
  have tokens : lineTokens "del".toList = some ["del".toList] := by decide +kernel
  have missing : ¬ Supplied ["del".toList] := by
    rintro ⟨name, first, supplied⟩
    obtain rfl : "del".toList = name := Option.some.inj first
    have five : getCmdCode "del".toList = some 5 := by decide
    have two : 2 ≤ ["del".toList].length := supplied 5 five
    simp at two
  obtain ⟨w, hrun, same, entries⟩ := far_history bareHost fun _ => none
  have both := free bareHost 1 [] [farLine] _ w rfl hrun same.symm 1
  obtain ⟨w', hstale⟩ : ∃ w', exec bareHost 1 "del".toList w.rewound = .ok w' :=
    exec_stale tokens missing entries
  rw [exec_unset tokens missing (w := (World.start fun _ => none).rewound) rfl, hstale] at both
  cases both

end AutoTest
