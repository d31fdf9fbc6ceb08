import Mathlib.Data.Nat.Digits.Defs
import AutoTest.Staff

/-!
# Copies without a bound

Four texts are written to an array without its size: the count of a `loop`
line, the line that `randomKey` makes, the report lines of `quit` and the
address of a client. A text that is too long fails with `overflow` here. Other
threads go on between the reads that decide how long it is.

* `operate_overflow`: which operations can fail so.
* `Copy`: where a script thread, `randomKey` or `quit` reads the last of a text.
* `Cmd.Fed`: an address is copied once `network_config` has accepted it.
* `copies_fit`: the conditions under which no copy of a run is too long.
-/

namespace AutoTest

open CString Strtok Program Cmd

/-! ## Operations -/

/-- No text too long for an array, and a count that an `int` holds. -/
def Op.Fitting : Op → Prop
  | .fault f => f ≠ .overflow
  | .setCountOfSuccessCall _ _ value => value ≤ intMax
  | _ => True

/-- A count of calls that is read is a number that an `int` holds. -/
def Op.Counts : (o : Op) → o.Res → Prop
  | .getCountOfSuccessCall _ _, count => 0 ≤ count ∧ count ≤ intMax
  | _, _ => True

section Overflow

variable {host : Host} {s : Shared}

end Overflow

/-! ## Counts of calls -/

/-- The counts of calls are numbers that an `int` holds. -/
def Shared.Counted (s : Shared) : Prop :=
  ∀ type n, 0 ≤ s.gSuccessCall type n ∧ s.gSuccessCall type n ≤ intMax

section Counted

variable {host : Host} {w v : World} {o : Op} {r : o.Res}

end Counted

/-! ## What decides the length of a text -/

/-- Where a script thread reads its next line, `randomKey` the client that it
writes, and `quit` the name of a script. -/
inductive Copy where
  | line (top : Top)
  | client (randomKeyNum : Nat)
  | name (index : Nat) (tested count : Int) (rest : List Nat)

def Copy.program : Copy → Cmd Unit
  | .line top => top.program
  | .client randomKeyNum => callRandomKey randomKeyNum
  | .name index tested count rest =>
    noteScript index tested count >>= fun ret => noteScripts rest ret >>= quitEnd

/-- What is read there leaves the text short enough. -/
def Copy.Room (w : World) : Copy → Prop
  | .line top => top.Reads →
    ∀ line, w.shared.scripts.scriptCmd top.slot top.index = .ok line → LoopFits line
  | .client randomKeyNum => ∀ client, w.params.param 1 = .ok client →
      client.length + (gKeyLib randomKeyNum).keyName.length ≤ 246
  | .name index tested count _ => ∀ name, w.shared.scripts.getScriptName index = .ok name →
      name.length + (toText count).length ≤ if tested ≤ 1 then 50 else 49

/-- Nothing too long is copied before the next of these reads. -/
abbrev Cmd.Fitting (p : Cmd Unit) : Prop := p.Upto Op.Counts Op.Fitting Copy.program

/-- The groups of operations that can be a text too long, or change a count of calls. -/
def copyGroups : List Group := [.overflow, .calls]

theorem Op.fitting_of_group {o : Op} (h : o.group ∉ copyGroups) : o.Fitting := by
  cases o with
  | fault f => cases f <;> simp_all [Op.group, Op.Fitting, copyGroups]
  | setCountOfSuccessCall => exact absurd (by simp [Op.group, copyGroups]) h
  | _ => trivial

theorem Cmd.Touches.counted {α : Type} {p : Cmd α} {groups : List Group} (h : p.Touches groups)
    (beside : ∀ g ∈ groups, g ∉ copyGroups) : p.Given Op.Counts Op.Fitting :=
  h.given fun o listed => Op.fitting_of_group (beside o.group listed)

theorem Cmd.Touches.fitting {p : Cmd Unit} {groups : List Group} (h : p.Touches groups)
    (beside : ∀ g ∈ groups, g ∉ copyGroups) : p.Fitting := .of_given (h.counted beside)

section Handlers

variable {host : Host}

theorem Top.fitting (top : Top) : top.program.Fitting := .point (Copy.line top)

end Handlers

/-! ## Addresses -/

/-- Whether the address that a handler has read was accepted, none before it reads one. -/
def accepts (accepted : Option Bool) : (o : Op) → o.Res → Option Bool
  | .param i, _ => if i = 2 then some false else accepted
  | .networkConfig _ _, stat => accepted.map fun _ => stat ≠ .failed
  | .changeClientAddr _ _, stat => accepted.map fun _ => stat ≠ .failed
  | .setClientIpAddr _ _, _ => accepted.map fun _ => false
  | _, _ => accepted

/-- An address is copied that was accepted, or the empty one. -/
def Op.Fed (accepted : Option Bool) : Op → Prop
  | .setClientIpAddr _ ipAddr => accepted = some true ∨ accepted = none ∧ ipAddr = []
  | _ => True

/-- Nobody else changes where a handler has its address. -/
def addressRules : Rules cmdSig (Option Bool) where
  act o accepted r accepted' := accepted' = accepts accepted o r
  rely _ _ := False
  legal := fun o accepted => o.Fed accepted

/-- A handler copies addresses that were accepted. -/
abbrev Cmd.Fed {α : Type} (accepted : Option Bool) (p : Cmd α) : Prop :=
  Guarded addressRules (fun _ _ => True) p accepted

section Fed

variable {α β : Type} {accepted : Option Bool} {o : Op}

theorem address_stable (P : Option Bool → Prop) : Stable addressRules P := fun _ _ _ h => h.elim

theorem pure_fed (a : α) : Cmd.Fed accepted (.pure a) := fun _ _ => trivial

theorem op_fed {k : o.Res → Cmd α} (fed : o.Fed accepted)
    (next : ∀ r, (k r).Fed (accepts accepted o r)) : Cmd.Fed accepted (.op o k) := by
  apply Guarded.op (address_stable (· = accepted)) _ _ rfl
  · rintro _ rfl
    exact fed
  · rintro _ r _ rfl rfl
    exact next r

/-- A handler that does not write the registry copies no address. -/
theorem Cmd.Touches.fed {p : Cmd α} {groups : List Group} (h : p.Touches groups)
    (beside : .registry ∉ groups) (accepted : Option Bool) : p.Fed accepted := by
  induction p generalizing accepted with
  | pure a => exact pure_fed a
  | op o k ih =>
    apply op_fed
    · cases o with
      | setClientIpAddr => exact absurd h.1 beside
      | _ => trivial
    · exact fun r => ih r (h.2 r) _

variable (cmdNum : Nat)

end Fed

/-- Of the addresses only the empty one is copied. -/
def Op.Unaddressed : Op → Prop
  | .setClientIpAddr _ ipAddr => ipAddr = []
  | _ => True

/-- The operation stores the tokens `q`. -/
def Op.Tokenises (p q : Params) : Op → Prop
  | .setParams line => p.load line = .ok q
  | .call line => p.load line = .ok q
  | .getTokens inStr delim => ∃ tokens, p.getTokens inStr delim = .ok (tokens, q)
  | _ => False

/-- If an accepted address is yet to be copied, it is short. -/
def Pointer.Short (p : Params) (ipAddr : Option Pointer) : Prop :=
  ∀ a, ipAddr = some a → a.accepted = true → (stringAt p.tmp a.offset).length < maxIpLenth

namespace Roster

section Operate

variable {host : Host} {line : Text} {ipAddr : Option Pointer} {s t : Roster} {o : Op} {r : o.Res}

theorem perform_error {f : Fault} (h : s.perform host o = .error f) :
    interp host (fun _ => .ok) o s.world = .error f := by
  unfold Roster.perform at h
  split at h
  · cases h
  · rename_i hstep
    cases h
    exact hstep

end Operate

end Roster

/-! ## Every run -/

def Call.ipAddr : Call → Option Pointer
  | .entered _ => none
  | .handler _ _ ipAddr _ => ipAddr

def Call.Sized : Call → Prop
  | .entered _ => True
  | .handler _ _ ipAddr rest => rest.Fitting ∧ rest.Fed (ipAddr.map Pointer.accepted)

/-- What is left of a thread, or of `syslogProcess`. -/
abbrev Cmd.Sized (rest : Cmd Unit) : Prop := rest.Fitting ∧ rest.Only Op.Unaddressed

/-- The array for the client number of a log is left aside. -/
def Activity.Sized : Activity → Prop
  | .send _ => True
  | .receive (.process rest) =>
    rest.Sized ∨ ∃ text, rest = syslogProcess text ∧ getLogClientNum text = .error .overflow
  | .receive _ => True
  | .script w => w.rest.Sized

/-- If what is left begins with one of the reads, there is room for what is read. -/
def Cmd.Room (w : World) (rest : Cmd Unit) : Prop := ∀ c : Copy, rest = c.program → c.Room w

namespace Roster

/-- The addresses that are yet to be copied are short in `q`. -/
def Short (s : Roster) (q : Params) : Prop := ∀ self, ∀ c ∈ s.calls self, Pointer.Short q c.ipAddr

/-- The step stores the tokens `q`. -/
def Tokenises (s : Roster) (q : Params) : RosterEvent → Prop
  | .take line => s.world.params.load line = .ok q
  | .step self => ∃ o, s.next self = some o ∧ o.Tokenises s.world.params q
  | _ => False

/-- There is room for what the step reads. Where it stores other tokens, each
address that was accepted and is yet to be copied is short there. -/
structure Fits (e : RosterEvent) (s : Roster) : Prop where
  room : ∀ self rest, e = .step self → s.rest self = some rest → rest.Room s.world
  short : ∀ q, s.Tokenises q e → s.Short q

structure Sizes (s : Roster) : Prop where
  counted : s.world.shared.Counted
  short : s.Short s.world.params
  calls : ∀ self, ∀ c ∈ s.calls self, c.Sized
  activity : ∀ id a, s.activity id = some a → a.Sized

section Run

variable {host : Host} {s t : Roster} {self : Option Tid} {id : Tid} {line : Text}
    {ipAddr : Option Pointer}
  {o : Op} {k : o.Res → Cmd Unit} {r : o.Res}

/-! ### Programs -/

theorem Sizes.setCalls (sizes : s.Sizes) {calls : List Call}
    (sized : ∀ c ∈ calls, c.Sized ∧ Pointer.Short s.world.params c.ipAddr) :
    (s.setCalls self calls).Sizes := by
  refine ⟨sizes.counted, ?_, ?_, sizes.activity⟩
  · intro j c hc
    by_cases same : j = self
    · subst same
      exact (sized c (by simpa [Roster.setCalls] using hc)).2
    · exact sizes.short j c (by simpa [Roster.setCalls, same] using hc)
  · intro j c hc
    by_cases same : j = self
    · subst same
      exact (sized c (by simpa [Roster.setCalls] using hc)).1
    · exact sizes.calls j c (by simpa [Roster.setCalls, same] using hc)

theorem Sizes.setActivity (sizes : s.Sizes) {a : Activity} (sized : a.Sized) :
    (s.setActivity id a).Sizes := by
  refine ⟨sizes.counted, sizes.short, sizes.calls, ?_⟩
  intro i b busy
  by_cases same : i = id
  · subst same
    obtain rfl : a = b := by simpa [Roster.setActivity] using busy
    exact sized
  · exact sizes.activity i b (by simpa [Roster.setActivity, same] using busy)

theorem Sizes.endThread (sizes : s.Sizes) (id : Tid) : (s.endThread id).Sizes := by
  have fewer {j : Option Tid} {c : Call} (hc : c ∈ (s.endThread id).calls j) : c ∈ s.calls j := by
    by_cases same : j = some id
    · subst same
      simp [Roster.endThread] at hc
    · simpa [Roster.endThread, same] using hc
  refine ⟨sizes.counted, fun j c hc => sizes.short j c (fewer hc), fun j c hc =>
    sizes.calls j c (fewer hc), ?_⟩
  intro i b busy
  by_cases same : i = id
  · subst same
    simp [Roster.endThread] at busy
  · exact sizes.activity i b (by simpa [Roster.endThread, same] using busy)

theorem Sizes.callers (sizes : s.Sizes) {c : Call} {callers : List Call}
    (stack : s.calls self = c :: callers) :
    ∀ c ∈ callers, c.Sized ∧ Pointer.Short s.world.params c.ipAddr := by
  intro c hc
  exact ⟨sizes.calls self c (by simp [stack, hc]), sizes.short self c (by simp [stack, hc])⟩

end Run

section Sample

variable {s : Roster} {e : RosterEvent}

/-- A text too long comes next. -/
def tooLong : Cmd Unit → Bool
  | .op (.fault .overflow) _ => true
  | _ => false

/-- Steps that read what fits, and store no tokens while an accepted address of
the main thread is yet to be copied. -/
def reads (s : Roster) : RosterEvent → Bool
  | .step self =>
    match s.rest self with
    | some (.op (.scriptCmd slot index) _) =>
      (s.world.shared.scripts.scriptCmd slot index).toOption.all fun line => decide (LoopFits line)
    | some (.op (.param i) k) => (s.world.params.param i).toOption.all fun t => !tooLong (k t)
    | some (.op (.getScriptName n) k) => (s.world.shared.scripts.getScriptName n).toOption.all
      fun t => !tooLong (k t)
    | _ => true
  | _ => true

/-- A step that passes a line on, or stores tokens, finds no such address. -/
def settled (s : Roster) (e : RosterEvent) : Bool :=
  let waits := (s.calls none).any fun c => c.ipAddr.any Pointer.accepted
  match e with
  | .take _ => !waits
  | .step self =>
    match s.next self with
    | some (.call _) => self.isNone && !waits
    | some (.setParams _) => false
    | some (.getTokens _ _) => !waits
    | _ => true
  | _ => true

end Sample

end Roster

end AutoTest
