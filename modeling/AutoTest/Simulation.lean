import AutoTest.Program

/-!
# Steps that stand for actions

Some steps of a machine stand for an action of a simpler one, and the others
for none. A relation between the two that every step keeps relates their runs.

* `Prog.run_image`: a program on a state and on an image of it.
* `trace`: the actions of a run.
* `Simulates.run`: the simpler machine, given the trace, ends where the run does.
* `runAll_keeps`: an invariant of the steps is one of the runs.
-/

namespace Program

variable {ι α σ δ ε : Type}

/-- The actions that a run stands for, up to a step that fails. -/
def trace (step : ι → σ → Except ε σ) (act : ι → σ → Option α) : List ι → σ → List α
  | [], _ => []
  | i :: is, s =>
    (act i s).toList ++
      match step i s with
      | .ok t => trace step act is t
      | .error _ => []

/-- The state of the simpler machine after some actions. -/
def after (next : α → δ → δ) (actions : List α) (d : δ) : δ := actions.foldl (fun d a => next a d) d

@[simp] theorem after_nil (next : α → δ → δ) (d : δ) : after next [] d = d := rfl

@[simp] theorem after_cons (next : α → δ → δ) (a : α) (actions : List α) (d : δ) :
    after next (a :: actions) d = after next actions (next a d) := rfl

theorem after_append (next : α → δ → δ) (first second : List α) (d : δ) :
    after next (first ++ second) d = after next second (after next first d) := List.foldl_append

/-! ## Runs that return -/

section Returns

variable {step : ι → σ → Except ε σ} {i : ι} {is : List ι} {s t : σ}

theorem runAll_nil_ok (h : runAll step [] s = .ok t) : s = t := by simpa [runAll] using h

theorem runAll_cons_ok (h : runAll step (i :: is) s = .ok t) :
    ∃ u, step i s = .ok u ∧ runAll step is u = .ok t := by
  simp only [runAll] at h
  cases hstep : step i s with
  | error e => simp [hstep] at h
  | ok u => exact ⟨u, rfl, by simpa only [hstep] using h⟩

theorem runAll_append (is js : List ι) (s : σ) :
    runAll step (is ++ js) s =
      match runAll step is s with
      | .ok t => runAll step js t
      | .error e => .error e := by
  induction is generalizing s with
  | nil => rfl
  | cons i is ih =>
    simp only [List.cons_append, runAll]
    cases step i s with
    | error e => rfl
    | ok t => exact ih t

end Returns

/-! ## Images -/

/-- Results that differ by a view of the end and by the names of the failures. -/
theorem image_cases {β υ : Type} {f : α → β} {lift : υ → ε} {x : Except ε α} {y : Except υ β}
    (h : x.map f = y.mapError lift) :
    (∃ e, x = .error (lift e) ∧ y = .error e) ∨ ∃ a, x = .ok a ∧ y = .ok (f a) := by
  cases x with
  | error e =>
    cases y with
    | error e' =>
      obtain rfl : e = lift e' := Except.error.inj h
      exact .inl ⟨e', rfl, rfl⟩
    | ok b => cases h
  | ok a =>
    cases y with
    | error e' => cases h
    | ok b =>
      obtain rfl : f a = b := Except.ok.inj h
      exact .inr ⟨a, rfl, rfl⟩

/-- Where the operations do the same to an image of the state, so do programs. -/
theorem Prog.run_image {S : Signature} {τ υ : Type} {h : Interp S ε σ}
    {h' : Interp S υ τ} (view : σ → τ) (lift : υ → ε)
    (step : ∀ o s, (h o s).map (fun x => (x.1, view x.2)) = (h' o (view s)).mapError lift)
    (p : Prog S α) (s : σ) :
    (p.run h s).map (fun x => (x.1, view x.2)) = (p.run h' (view s)).mapError lift := by
  induction p generalizing s with
  | pure a => rfl
  | op o k ih =>
    rcases image_cases (step o s) with ⟨e, fails, image⟩ | ⟨x, answer, image⟩
    · rw [Prog.run_op_error fails, Prog.run_op_error image]
      rfl
    · rw [Prog.run_op_ok answer, Prog.run_op_ok image]
      exact ih x.1 x.2

/-! ## Simulation -/

structure Simulates (step : ι → σ → Except ε σ) (act : ι → σ → Option α) (next : α → δ → δ)
    (R : σ → δ → Prop) : Prop where
  moves : ∀ i s t d a, R s d → step i s = .ok t → act i s = some a → R t (next a d)
  stays : ∀ i s t d, R s d → step i s = .ok t → act i s = none → R t d

namespace Simulates

variable {step : ι → σ → Except ε σ} {act : ι → σ → Option α} {next : α → δ → δ} {R : σ → δ → Prop}

theorem keeps (sim : Simulates step act next R) {i : ι} {s t : σ} {d : δ} (related : R s d)
    (hstep : step i s = .ok t) : R t (after next (act i s).toList d) := by
  cases action : act i s with
  | none => exact sim.stays i s t d related hstep action
  | some a => exact sim.moves i s t d a related hstep action

theorem run (sim : Simulates step act next R) {is : List ι} {s t : σ} {d : δ} (related : R s d)
    (hrun : runAll step is s = .ok t) : R t (after next (trace step act is s) d) := by
  induction is generalizing s d with
  | nil =>
    obtain rfl := runAll_nil_ok hrun
    exact related
  | cons i is ih =>
    obtain ⟨u, hstep, hrest⟩ := runAll_cons_ok hrun
    simp only [trace, hstep, after_append]
    exact ih (sim.keeps related hstep) hrest

end Simulates

/-- What every step keeps, a run keeps. -/
theorem runAll_keeps {step : ι → σ → Except ε σ} {I : σ → Prop}
    (hstep : ∀ i s t, I s → step i s = .ok t → I t) {is : List ι} {s t : σ} (hs : I s)
    (hrun : runAll step is s = .ok t) : I t :=
  Along.invariant I (fun i s t kept _ => hstep i s t kept) hs
    (along_of_forall (fun _ _ _ => trivial) s) hrun

/-- The trace of a run that goes on. -/
theorem trace_append {step : ι → σ → Except ε σ} (act : ι → σ → Option α) {is : List ι} {s t : σ}
    (hrun : runAll step is s = .ok t) (js : List ι) :
    trace step act (is ++ js) s = trace step act is s ++ trace step act js t := by
  induction is generalizing s with
  | nil =>
    obtain rfl := runAll_nil_ok hrun
    rfl
  | cons i is ih =>
    obtain ⟨u, hstep, hrest⟩ := runAll_cons_ok hrun
    simp only [List.cons_append, trace, hstep, ih hrest, List.append_assoc]

end Program
