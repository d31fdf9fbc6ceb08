import AutoTest.Program

/-!
# Programs that call each other by name

Each name has a program, and some operations of a program call a name. How
deep the calls may nest is a bound that only the evaluation knows.

* `eval`: at most so many calls inside each other; one more is `stuck`.
* `eval_extends`: a larger bound changes no result but that one.
* `endless_iff_chain`: every bound is too small exactly when each call of an
  infinite chain comes to the next one.
* `returns_of_acc`: so names whose calls descend return.
-/

namespace Program

/-- `under f` interprets a call of `k` as `f k`, and the other operations
without `f`. -/
structure Recursion (S : Signature) (κ ε σ : Type) where
  body : κ → Prog S Unit
  callee : S.Op → Option κ
  under : (κ → σ → Except ε σ) → Interp S ε σ
  stuck : ε
  call : ∀ {o k}, callee o = some k → ∃ r, ∀ f s, under f o s = (f k s).map fun t => (r, t)
  plain : ∀ {o}, callee o = none → ∀ f g s, under f o s = under g o s

namespace Recursion

variable {S : Signature} {α κ ε σ : Type} (R : Recursion S κ ε σ)

/-- The body of `k`, its calls being answered by `f`. -/
def enter (f : κ → σ → Except ε σ) (k : κ) (s : σ) : Except ε σ :=
  ((R.body k).run (R.under f) s).map Prod.snd

def eval : Nat → κ → σ → Except ε σ
  | 0, _, _ => .error R.stuck
  | n + 1, k, s => R.enter (eval n) k s

/-- Every bound is too small. -/
def Endless (k : κ) (s : σ) : Prop := ∀ n, R.eval n k s = .error R.stuck

/-! ## Larger bounds -/

/-- Where `f` does not give up, `g` has the same result. -/
def Extends (f g : κ → σ → Except ε σ) : Prop := ∀ k s, f k s = .error R.stuck ∨ f k s = g k s

variable {R} {f g : κ → σ → Except ε σ}

theorem under_extends (h : R.Extends f g) (o : S.Op) (s : σ) :
    R.under f o s = .error R.stuck ∨ R.under f o s = R.under g o s := by
  cases name : R.callee o with
  | none => exact .inr (R.plain name f g s)
  | some k =>
    obtain ⟨r, answered⟩ := R.call name
    rw [answered f s, answered g s]
    rcases h k s with gave | same
    · exact .inl (by rw [gave, Except.map])
    · exact .inr (by rw [same])

theorem run_extends (h : R.Extends f g) (p : Prog S α) (s : σ) :
    p.run (R.under f) s = .error R.stuck ∨ p.run (R.under f) s = p.run (R.under g) s := by
  induction p generalizing s with
  | pure a => exact .inr rfl
  | op o c ih =>
    rcases under_extends h o s with gave | same
    · exact .inl (Prog.run_op_error gave)
    · cases answer : R.under f o s with
      | error e =>
        rw [answer] at same
        exact .inr (by rw [Prog.run_op_error answer, Prog.run_op_error same.symm])
      | ok rt =>
        rw [answer] at same
        rw [Prog.run_op_ok answer, Prog.run_op_ok same.symm]
        exact ih rt.1 rt.2

theorem enter_extends (h : R.Extends f g) : R.Extends (R.enter f) (R.enter g) := by
  intro k s
  rcases run_extends h (R.body k) s with gave | same
  · exact .inl (by rw [enter, gave, Except.map])
  · exact .inr (by rw [enter, enter, same])

theorem runAll_extends (h : R.Extends f g) (ks : List κ) (s : σ) :
    runAll f ks s = .error R.stuck ∨ runAll f ks s = runAll g ks s := by
  induction ks generalizing s with
  | nil => exact .inr rfl
  | cons k ks ih =>
    simp only [runAll]
    rcases h k s with gave | same
    · exact .inl (by rw [gave])
    · rw [← same]
      cases f k s with
      | error e => exact .inr rfl
      | ok t => exact ih t

/-- A larger bound changes no result but that of giving up. -/
theorem eval_extends {n m : Nat} (le : n ≤ m) : R.Extends (R.eval n) (R.eval m) := by
  induction n generalizing m with
  | zero => exact fun _ _ => .inl rfl
  | succ n ih =>
    cases m with
    | zero => omega
    | succ m => exact enter_extends (ih (Nat.le_of_succ_le_succ le))

/-- A bound that is enough, and that all larger ones agree with. -/
theorem settles {k : κ} {s : σ} (h : ¬ R.Endless k s) :
    ∃ n, R.eval n k s ≠ .error R.stuck ∧ ∀ m, n ≤ m → R.eval m k s = R.eval n k s := by
  obtain ⟨n, enough⟩ := Classical.not_forall.mp h
  refine ⟨n, enough, fun m le => ?_⟩
  exact ((eval_extends le k s).resolve_left enough).symm

theorem stuck_below {n m : Nat} (le : n ≤ m) {p : Prog S α} {s : σ}
    (h : p.run (R.under (R.eval m)) s = .error R.stuck) :
    p.run (R.under (R.eval n)) s = .error R.stuck := by
  rcases run_extends (eval_extends le) p s with gave | same
  · exact gave
  · exact same.trans h

/-! ## The call that gives up -/

variable (R)

/-- The program comes to a call of a name, all its operations before it having
been answered within some bound. -/
inductive Comes : Prog S α → σ → κ → σ → Prop where
  | here {o : S.Op} {c : S.Res o → Prog S α} {s : σ} {k : κ} (name : R.callee o = some k) :
      Comes (.op o c) s k s
  | past {o : S.Op} {c : S.Res o → Prog S α} {s t u : σ} {r : S.Res o} {k : κ} (n : Nat)
      (answer : R.under (R.eval n) o s = .ok (r, t)) (later : Comes (c r) t k u) :
      Comes (.op o c) s k u

/-- A call of the first name leads to a call of the second. -/
def Calls (x y : κ × σ) : Prop := R.Comes (R.body x.1) x.2 y.1 y.2

/-- The operations that are no calls do not give up, under answers that can be given. -/
structure Honest (A : (o : S.Op) → S.Res o → Prop) (P : S.Op → Prop) : Prop where
  body : ∀ k, (R.body k).Given A P
  answers : ∀ f o s r t, R.under f o s = .ok (r, t) → A o r
  plain : ∀ f o s, P o → R.callee o = none → R.under f o s ≠ .error R.stuck

variable {R}

theorem Comes.stuck {p : Prog S α} {s u : σ} {k : κ} (h : R.Comes p s k u) {n : Nat}
    (gives : R.eval n k u = .error R.stuck) : p.run (R.under (R.eval n)) s = .error R.stuck := by
  induction h with
  | here name =>
    obtain ⟨r, answered⟩ := R.call name
    apply Prog.run_op_error
    rw [answered, gives, Except.map]
  | @past o c s t u r k m answer later ih =>
    have both : R.Extends (R.eval m) (R.eval (max m n)) := eval_extends (Nat.le_max_left m n)
    have wider : R.Extends (R.eval n) (R.eval (max m n)) := eval_extends (Nat.le_max_right m n)
    have known : R.under (R.eval (max m n)) o s = .ok (r, t) := by
      rcases under_extends both o s with gave | same
      · cases answer.symm.trans gave
      · exact same.symm.trans answer
    rcases under_extends wider o s with gave | same
    · exact Prog.run_op_error gave
    · rw [Prog.run_op_ok (same.trans known)]
      exact ih gives

/-- The program goes on after an operation that is no call. -/
theorem Comes.bind_op {o : S.Op} {f : S.Res o → Prog S α} {s u : σ} {k : κ} (name : R.callee o = none)
    (h : R.Comes (Prog.op o .pure >>= f) s k u) :
    ∃ n r t, R.under (R.eval n) o s = .ok (r, t) ∧ R.Comes (f r) t k u := by
  cases h with
  | here other => cases name.symm.trans other
  | past n answer later => exact ⟨n, _, _, answer, later⟩

/-- A call that a program comes to is one of its operations. -/
theorem Comes.only {P : S.Op → Prop} {p : Prog S α} (hp : p.Only P) {s u : σ} {k : κ}
    (h : R.Comes p s k u) : ∃ o, R.callee o = some k ∧ P o := by
  induction h with
  | here name => exact ⟨_, name, hp.1⟩
  | past n answer later ih => exact ih (hp.2 _)

theorem Comes.bind_inv {β : Type} {p : Prog S α} {f : α → Prog S β} {s u : σ} {k : κ}
    (h : R.Comes (p >>= f) s k u) : R.Comes p s k u ∨ ∃ a t, R.Comes (f a) t k u := by
  induction p generalizing s with
  | pure a => exact .inr ⟨a, s, h⟩
  | op o c ih =>
    cases h with
    | here name => exact .inl (.here name)
    | past n answer later =>
      rcases ih _ later with first | second
      · exact .inl (.past n answer first)
      · exact .inr second

variable {A : (o : S.Op) → S.Res o → Prop} {P : S.Op → Prop}

/-- Of a program that gives up under every bound, one call does. -/
theorem Honest.comes (honest : R.Honest A P) {p : Prog S α} (given : p.Given A P) {s : σ}
    (h : ∀ n, p.run (R.under (R.eval n)) s = .error R.stuck) :
    ∃ k u, R.Comes p s k u ∧ R.Endless k u := by
  induction p generalizing s with
  | pure a => cases h 0
  | op o c ih =>
    have later {r : S.Res o} {t : σ} (n : Nat) (answer : R.under (R.eval n) o s = .ok (r, t))
        (rest : ∀ m, (c r).run (R.under (R.eval m)) t = .error R.stuck) :
        ∃ k u, R.Comes (.op o c) s k u ∧ R.Endless k u := by
      obtain ⟨k, u, comes, endless⟩ := ih r (given.2 r (honest.answers _ o s r t answer)) rest
      exact ⟨k, u, .past n answer comes, endless⟩
    cases name : R.callee o with
    | none =>
      cases answer : R.under (R.eval 0) o s with
      | error e =>
        obtain rfl : e = R.stuck := by simpa [Prog.run_op_error answer] using h 0
        exact absurd answer (honest.plain _ o s given.1 name)
      | ok rt =>
        refine later 0 answer fun m => ?_
        rw [← h m, Prog.run_op_ok ((R.plain name _ _ s).trans answer)]
    | some k =>
      by_cases endless : R.Endless k s
      · exact ⟨k, s, .here name, endless⟩
      · obtain ⟨r, answered⟩ := R.call name
        obtain ⟨n, enough, stays⟩ := settles endless
        cases result : R.eval n k s with
        | error e =>
          have failed : R.under (R.eval n) o s = .error e := by rw [answered, result, Except.map]
          have gave := h n
          rw [Prog.run_op_error failed, Except.error.injEq] at gave
          exact absurd (gave ▸ result) enough
        | ok t =>
          have answer (m : Nat) (le : n ≤ m) : R.under (R.eval m) o s = .ok (r, t) := by
            rw [answered, stays m le, result, Except.map]
          refine later n (answer n (Nat.le_refl n)) fun m => ?_
          apply stuck_below (Nat.le_max_left m n)
          rw [← h (max m n), Prog.run_op_ok (answer _ (Nat.le_max_right m n))]

theorem Honest.calls (honest : R.Honest A P) {x : κ × σ} (h : R.Endless x.1 x.2) :
    ∃ y, R.Calls x y ∧ R.Endless y.1 y.2 := by
  have gives (n : Nat) : (R.body x.1).run (R.under (R.eval n)) x.2 = .error R.stuck := by
    have entered : R.enter (R.eval n) x.1 x.2 = .error R.stuck := h (n + 1)
    unfold enter at entered
    cases hrun : (R.body x.1).run (R.under (R.eval n)) x.2 with
    | error e => simpa [hrun, Except.map] using entered
    | ok a => simp [hrun, Except.map] at entered
  obtain ⟨k, u, comes, endless⟩ := honest.comes (honest.body x.1) gives
  exact ⟨(k, u), comes, endless⟩

/-- No bound is enough exactly when the calls go down forever. -/
theorem Honest.endless_iff_chain (honest : R.Honest A P) (x : κ × σ) :
    R.Endless x.1 x.2 ↔ ∃ chain : Nat → κ × σ, chain 0 = x ∧
      ∀ i, R.Calls (chain i) (chain (i + 1)) := by
  constructor
  · intro endless
    let next (y : {y : κ × σ // R.Endless y.1 y.2}) : {y : κ × σ // R.Endless y.1 y.2} :=
      ⟨(honest.calls y.2).choose, (honest.calls y.2).choose_spec.2⟩
    let chain (i : Nat) := Nat.rec (motive := fun _ => {y : κ × σ // R.Endless y.1 y.2}) ⟨x, endless⟩
      (fun _ y => next y) i
    exact ⟨fun i => (chain i).1, rfl, fun i => (honest.calls (chain i).2).choose_spec.1⟩
  · rintro ⟨chain, rfl, calls⟩ n
    -- the first call gives up at the bound that its first inner call has one less of
    have gives (n i : Nat) : R.eval n (chain i).1 (chain i).2 = .error R.stuck := by
      induction n generalizing i with
      | zero => rfl
      | succ n ih =>
        have stuck := (calls i).stuck (ih (i + 1))
        simp only [eval, enter, stuck, Except.map]
    exact gives n 0

/-- Names whose calls descend come to an end. -/
theorem Honest.returns_of_acc (honest : R.Honest A P) {below : κ → κ → Prop}
    (descends : ∀ x y, R.Calls x y → below y.1 x.1) {k : κ} (acc : Acc below k) (s : σ) :
    ¬ R.Endless k s := by
  induction acc generalizing s with
  | intro k _ ih =>
    intro endless
    obtain ⟨y, calls, inner⟩ := honest.calls (x := (k, s)) endless
    exact ih y.1 (descends _ _ calls) y.2 inner

end Recursion

end Program
