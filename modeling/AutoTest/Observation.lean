import AutoTest.Program

/-!
# What a run writes

Some operations write a text that no later operation reads. An interpretation
that keeps these texts beside the state runs every program as the one without
them does.

* `run_observing`: the texts are beside the run and change nothing about it.
* `Prog.Leads.seen`: one operation, with what it writes.
-/

namespace Program

variable {S : Signature} {α β ε σ : Type}

/-- The state, and all that was written. -/
def observing (h : Interp S ε σ) (see : S.Op → List β) : Interp S ε (σ × List β)
  | o, (s, seen) =>
    match h o s with
    | .ok (r, s) => .ok (r, s, seen ++ see o)
    | .error e => .error e

variable {h : Interp S ε σ} {see : S.Op → List β}

theorem observing_ok {o : S.Op} {r : S.Res o} {s t : σ} (hstep : h o s = .ok (r, t)) (seen : List β) :
    observing h see o (s, seen) = .ok (r, t, seen ++ see o) := by
  simp only [observing, hstep]

theorem observing_error {o : S.Op} {e : ε} {s : σ} (hstep : h o s = .error e) (seen : List β) :
    observing h see o (s, seen) = .error e := by
  simp only [observing, hstep]

/-- What is written does not decide how a run ends. -/
theorem run_observing (p : Prog S α) (s : σ) (seen : List β) :
    p.run h s = (p.run (observing h see) (s, seen)).map fun r => (r.1, r.2.1) := by
  induction p generalizing s seen with
  | pure a => rfl
  | op o k ih =>
    cases hstep : h o s with
    | error e => rw [Prog.run_op_error hstep,
      Prog.run_op_error (observing_error hstep seen), Except.map]
    | ok answer => rw [Prog.run_op_ok hstep, Prog.run_op_ok (observing_ok hstep seen), ih]

/-- A run that returns has written something. -/
theorem run_observing_ok {p : Prog S α} {a : α} {s t : σ} (hrun : p.run h s = .ok (a, t))
    (seen : List β) :
    ∃ all, p.run (observing h see) (s, seen) = .ok (a, t, all) := by
  have same : p.run h s = (p.run (observing h see) (s, seen)).map _ := run_observing p s seen
  rw [same] at hrun
  cases observed : p.run (observing h see) (s, seen) with
  | error e => simp [observed, Except.map] at hrun
  | ok result =>
    obtain ⟨b, u, all⟩ := result
    obtain ⟨rfl, rfl⟩ : b = a ∧ u = t := by simpa [observed, Except.map] using hrun
    exact ⟨all, rfl⟩

namespace Prog.Leads

variable {post : α → σ × List β → Prop}

/-- An operation, where it does not matter how a run fails. -/
theorem seen {o : S.Op} {f : S.Res o → Prog S α} {s : σ} {written : List β}
    (next : ∀ r t, h o s = .ok (r, t) →
      (f r).Leads (observing h see) (fun _ => True) post (t, written ++ see o)) :
    (Prog.op o .pure >>= f).Leads (observing h see) (fun _ => True) post (s, written) := by
  apply bind_op _ fun _ _ => trivial
  rintro r ⟨t, all⟩ hstep
  simp only [observing] at hstep
  split at hstep
  · rename_i answer
    simp only [Except.ok.injEq, Prod.mk.injEq] at hstep
    obtain ⟨rfl, rfl, rfl⟩ := hstep
    exact next _ _ answer
  · cases hstep

end Prog.Leads

end Program
