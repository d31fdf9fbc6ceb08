import Mathlib.Logic.Relation

/-!
# Programs as trees of operations

A program is the tree of the operations it performs, each with a continuation
for every answer. One translation of a function serves all its readings:

* `run` executes it on a state, one operation after the other;
* `Leads` says where its executions from a state can end;
* `Only` bounds the operations it can perform, whatever the answers;
* `Given` bounds them where the answers are bounded too, and `Upto` does so up
  to the next point of a kind;
* `Follows` says that an automaton accepts their order;
* `Watched` follows them with their answers, to the state of a monitor at the
  end;
* `Guarded` follows it while an environment interferes between any two of its
  operations, by assertions the environment cannot falsify.

`Throughout`, `Along` and `Always` speak about a run: what every step does, what
holds before every step, and what holds in every state.
-/

namespace Program

structure Signature where
  Op : Type
  Res : Op → Type

/-- An operation and its answer. -/
abbrev Entry (S : Signature) := (o : S.Op) × S.Res o

inductive Prog (S : Signature) (α : Type) : Type where
  | pure (a : α) : Prog S α
  | op (o : S.Op) (k : S.Res o → Prog S α) : Prog S α

variable {S : Signature} {α β ε σ : Type}

namespace Prog

def bind : Prog S α → (α → Prog S β) → Prog S β
  | .pure a, f => f a
  | .op o k, f => .op o (fun r => (k r).bind f)

instance : Monad (Prog S) where
  pure := .pure
  bind := .bind

@[simp] theorem pure_bind' (a : α) (f : α → Prog S β) : (Prog.pure a >>= f) = f a := rfl

@[simp] theorem op_bind (o : S.Op) (k : S.Res o → Prog S α) (f : α → Prog S β) :
    (Prog.op o k >>= f) = .op o (fun r => k r >>= f) := rfl

@[simp] theorem pure_eq (a : α) : (Pure.pure a : Prog S α) = .pure a := rfl

theorem bind_assoc' (p : Prog S α) (f : α → Prog S β) {γ : Type} (g : β → Prog S γ) :
    (p >>= f >>= g) = (p >>= fun a => f a >>= g) := by
  induction p with
  | pure a => rfl
  | op o k ih => simp only [op_bind, ih]

end Prog

/-! ## Execution -/

/-- An operation either fails or answers and changes the state. -/
abbrev Interp (S : Signature) (ε σ : Type) := (o : S.Op) → σ → Except ε (S.Res o × σ)

namespace Prog

def run (h : Interp S ε σ) : Prog S α → σ → Except ε (α × σ)
  | .pure a, s => .ok (a, s)
  | .op o k, s =>
    match h o s with
    | .ok (r, s) => (k r).run h s
    | .error e => .error e

variable {h : Interp S ε σ}

@[simp] theorem run_pure (a : α) (s : σ) : (Prog.pure a).run h s = .ok (a, s) := rfl

theorem run_op_ok {o : S.Op} {k : S.Res o → Prog S α} {s s' : σ} {r : S.Res o}
    (hr : h o s = .ok (r, s')) : (Prog.op o k).run h s = (k r).run h s' := by
  simp only [run, hr]

theorem run_op_error {o : S.Op} {k : S.Res o → Prog S α} {s : σ} {e : ε}
    (hr : h o s = .error e) : (Prog.op o k).run h s = .error e := by
  simp only [run, hr]

theorem run_bind (p : Prog S α) (f : α → Prog S β) (s : σ) :
    (p >>= f).run h s =
      match p.run h s with
      | .ok (a, s) => (f a).run h s
      | .error e => .error e := by
  induction p generalizing s with
  | pure a => rfl
  | op o k ih =>
    simp only [op_bind, run]
    cases h o s with
    | error e => rfl
    | ok rs => exact ih rs.1 rs.2

/-- What a finished run of a tree did first. -/
theorem run_op_inv {o : S.Op} {k : S.Res o → Prog S α} {s : σ} {x : α × σ}
    (hrun : (Prog.op o k).run h s = .ok x) :
    ∃ r s', h o s = .ok (r, s') ∧ (k r).run h s' = .ok x := by
  simp only [run] at hrun
  cases hstep : h o s with
  | error e => simp [hstep] at hrun
  | ok rs => exact ⟨rs.1, rs.2, rfl, by simpa [hstep] using hrun⟩

theorem run_bind_ok {p : Prog S α} {f : α → Prog S β} {s t : σ} {a : α}
    (hp : p.run h s = .ok (a, t)) : (p >>= f).run h s = (f a).run h t := by
  rw [run_bind, hp]

theorem run_bind_inv {p : Prog S α} {f : α → Prog S β} {s : σ} {x : β × σ}
    (hrun : (p >>= f).run h s = .ok x) :
    ∃ a t, p.run h s = .ok (a, t) ∧ (f a).run h t = .ok x := by
  rw [run_bind] at hrun
  cases hp : p.run h s with
  | error e => simp [hp] at hrun
  | ok at' => exact ⟨at'.1, at'.2, rfl, by simpa only [hp] using hrun⟩

/-- At most so many operations, and the result if they were all. -/
def runUpTo (h : Interp S ε σ) : Nat → Prog S α → σ → Except ε (Option α × σ)
  | _, .pure a, s => .ok (some a, s)
  | 0, .op _ _, s => .ok (none, s)
  | n + 1, .op o k, s =>
    match h o s with
    | .ok (r, s) => (k r).runUpTo h n s
    | .error e => .error e

/-- An interrupted run that comes to the end is a run. -/
theorem runUpTo_some {n : Nat} {p : Prog S α} {s t : σ} {a : α}
    (hrun : p.runUpTo h n s = .ok (some a, t)) : p.run h s = .ok (a, t) := by
  induction p generalizing n s with
  | pure b =>
    simp only [runUpTo, Except.ok.injEq, Prod.mk.injEq, Option.some.injEq] at hrun
    simp [hrun]
  | op o k ih =>
    cases n with
    | zero => simp [runUpTo] at hrun
    | succ n =>
      simp only [runUpTo] at hrun
      cases hstep : h o s with
      | error e => simp [hstep] at hrun
      | ok rs =>
        rw [run_op_ok hstep]
        simp only [hstep] at hrun
        exact ih rs.1 hrun

theorem runUpTo_total (total : ∀ o s, ∃ x, h o s = .ok x) (n : Nat) (p : Prog S α) (s : σ) :
    ∃ x, p.runUpTo h n s = .ok x := by
  induction p generalizing n s with
  | pure a => cases n <;> exact ⟨(some a, s), rfl⟩
  | op o k ih =>
    cases n with
    | zero => exact ⟨(none, s), rfl⟩
    | succ n =>
      obtain ⟨⟨r, t⟩, hstep⟩ := total o s
      obtain ⟨x, hrun⟩ := ih r n t
      exact ⟨x, by simp only [runUpTo, hstep, hrun]⟩

/-! ## The operations a program can perform -/

def Only (P : S.Op → Prop) : Prog S α → Prop
  | .pure _ => True
  | .op o k => P o ∧ ∀ r, (k r).Only P

theorem Only.bind {P : S.Op → Prop} {p : Prog S α} {f : α → Prog S β} (hp : p.Only P)
    (hf : ∀ a, (f a).Only P) : (p >>= f).Only P := by
  induction p with
  | pure a => exact hf a
  | op o k ih => exact ⟨hp.1, fun r => ih r (hp.2 r)⟩

theorem Only.bind_op {P : S.Op → Prop} {o : S.Op} {f : S.Res o → Prog S α} (ho : P o)
    (hf : ∀ r, (f r).Only P) : (Prog.op o .pure >>= f).Only P := ⟨ho, hf⟩

theorem Only.mono {P Q : S.Op → Prop} (weaker : ∀ o, P o → Q o) {p : Prog S α} (hp : p.Only P) :
    p.Only Q := by
  induction p with
  | pure a => trivial
  | op o k ih => exact ⟨weaker o hp.1, fun r => ih r (hp.2 r)⟩

theorem Only.ite {P : S.Op → Prop} {c : Prop} [Decidable c] {p q : Prog S α} (hp : c → p.Only P)
    (hq : ¬ c → q.Only P) : Prog.Only P (if c then p else q) := by
  by_cases h : c
  · simpa only [h, ↓reduceIte] using hp h
  · simpa only [h, ↓reduceIte] using hq h

/-- Some answers lead the program to this operation. -/
def Performs (o : S.Op) : Prog S α → Prop
  | .pure _ => False
  | .op o' k => o' = o ∨ ∃ r, (k r).Performs o

theorem Only.performs {P : S.Op → Prop} {p : Prog S α} (hp : p.Only P) {o : S.Op}
    (ho : p.Performs o) : P o := by
  induction p with
  | pure a => exact ho.elim
  | op o' k ih =>
    rcases ho with rfl | ⟨r, later⟩
    · exact hp.1
    · exact ih r (hp.2 r) later

/-- A reflexive and transitive relation kept by each operation a program can
perform relates the two ends of its run. -/
theorem Only.run_rel {P : S.Op → Prop} {R : σ → σ → Prop} (refl : ∀ s, R s s)
    (trans : ∀ a b c, R a b → R b c → R a c)
    (step : ∀ o s r s', P o → h o s = .ok (r, s') → R s s')
    {p : Prog S α} (hp : p.Only P) {s s' : σ} {a : α} (hrun : p.run h s = .ok (a, s')) :
    R s s' := by
  induction p generalizing s with
  | pure b =>
    obtain ⟨_, rfl⟩ : b = a ∧ s = s' := by simpa using hrun
    exact refl s
  | op o k ih =>
    obtain ⟨r, mid, hstep, hrest⟩ := run_op_inv hrun
    exact trans _ _ _ (step o s r mid hp.1 hstep) (ih r (hp.2 r) hrest)

/-! ## Programs and an automaton -/

/-- `δ` says what an operation does to the state of an automaton, and which
operations it refuses. Whatever the answers, the program is refused nothing
and leaves the automaton in `last`. -/
def Follows {κ : Type} (δ : S.Op → κ → Option κ) (last : κ) : Prog S α → κ → Prop
  | .pure _, x => x = last
  | .op o k, x => ∃ y, δ o x = some y ∧ ∀ r, (k r).Follows δ last y

namespace Follows

variable {κ : Type} {δ : S.Op → κ → Option κ} {x y z : κ}

theorem bind {p : Prog S α} {f : α → Prog S β} (hp : p.Follows δ y x)
    (hf : ∀ a, (f a).Follows δ z y) : (p >>= f).Follows δ z x := by
  induction p generalizing x with
  | pure a =>
    obtain rfl : x = y := hp
    exact hf a
  | op o k ih =>
    obtain ⟨next, ho, rest⟩ := hp
    exact ⟨next, ho, fun r => ih r (rest r)⟩

theorem bind_op {o : S.Op} {f : S.Res o → Prog S α} (ho : δ o x = some y)
    (hf : ∀ r, (f r).Follows δ z y) : (Prog.op o .pure >>= f).Follows δ z x := ⟨y, ho, hf⟩

theorem ite {c : Prop} [Decidable c] {p q : Prog S α} (hp : c → p.Follows δ y x)
    (hq : ¬ c → q.Follows δ y x) : Follows δ y (if c then p else q) x := by
  by_cases h : c
  · simpa only [h, ↓reduceIte] using hp h
  · simpa only [h, ↓reduceIte] using hq h

theorem only {Q : S.Op → Prop} (accepts : ∀ o x y, δ o x = some y → Q o) {p : Prog S α}
    (h : p.Follows δ y x) : p.Only Q := by
  induction p generalizing x with
  | pure a => trivial
  | op o k ih =>
    obtain ⟨next, ho, rest⟩ := h
    exact ⟨accepts o x next ho, fun r => ih r (rest r)⟩

theorem of_only {p : Prog S α} (h : p.Only fun o => δ o x = some x) : p.Follows δ x x := by
  induction p with
  | pure a => rfl
  | op o k ih => exact ⟨x, h.1, fun r => ih r (h.2 r)⟩

end Follows

/-! ## Where a run leads -/

/-- A run from `s` ends in `post`, or fails in `bad`. -/
def Leads (h : Interp S ε σ) (bad : ε → Prop) (post : α → σ → Prop) (p : Prog S α) (s : σ) : Prop :=
  match p.run h s with
  | .ok (a, s) => post a s
  | .error e => bad e

namespace Leads

variable {bad : ε → Prop} {post : α → σ → Prop}

theorem pure {a : α} {s : σ} (hs : post a s) : (Prog.pure a).Leads h bad post s := hs

theorem op {o : S.Op} {k : S.Res o → Prog S α} {s : σ}
    (answers : ∀ r t, h o s = .ok (r, t) → (k r).Leads h bad post t)
    (fails : ∀ e, h o s = .error e → bad e) : (Prog.op o k).Leads h bad post s := by
  unfold Leads
  cases hstep : h o s with
  | error e => simpa only [run_op_error hstep] using fails e hstep
  | ok rt =>
    rw [run_op_ok hstep]
    exact answers rt.1 rt.2 hstep

theorem bind_op {o : S.Op} {f : S.Res o → Prog S α} {s : σ}
    (answers : ∀ r t, h o s = .ok (r, t) → (f r).Leads h bad post t)
    (fails : ∀ e, h o s = .error e → bad e) : (Prog.op o .pure >>= f).Leads h bad post s :=
  .op answers fails

/-- An operation whose answer is known. -/
theorem now {o : S.Op} {f : S.Res o → Prog S α} {s t : σ} {r : S.Res o} (answer : h o s = .ok (r, t))
    (next : (f r).Leads h bad post t) : (Prog.op o .pure >>= f).Leads h bad post s := by
  apply bind_op
  · intro r' t' hstep
    cases answer.symm.trans hstep
    exact next
  · intro e hstep
    cases answer.symm.trans hstep

theorem bind {p : Prog S α} {f : α → Prog S β} {mid : α → σ → Prop} {post : β → σ → Prop} {s : σ}
    (hp : p.Leads h bad mid s) (hf : ∀ a t, mid a t → (f a).Leads h bad post t) :
    (p >>= f).Leads h bad post s := by
  unfold Leads at hp ⊢
  rw [run_bind]
  cases hrun : p.run h s with
  | error e => simpa only [hrun] using hp
  | ok at' =>
    simp only [hrun] at hp
    exact hf at'.1 at'.2 hp

theorem ite {c : Prop} [Decidable c] {p q : Prog S α} {s : σ} (hp : c → p.Leads h bad post s)
    (hq : ¬ c → q.Leads h bad post s) : Leads h bad post (if c then p else q) s := by
  by_cases hc : c
  · simpa only [hc, ↓reduceIte] using hp hc
  · simpa only [hc, ↓reduceIte] using hq hc

theorem mono {p : Prog S α} {post' : α → σ → Prop} {s : σ} (weaker : ∀ a t, post a t → post' a t)
    (hp : p.Leads h bad post s) : p.Leads h bad post' s := by
  unfold Leads at hp ⊢
  cases hrun : p.run h s with
  | error e => simpa only [hrun] using hp
  | ok at' =>
    simp only [hrun] at hp
    exact weaker at'.1 at'.2 hp

theorem error {p : Prog S α} {s : σ} {e : ε} (hp : p.Leads h bad post s)
    (hrun : p.run h s = .error e) : bad e := by
  simpa only [Leads, hrun] using hp

theorem ok {p : Prog S α} {s t : σ} {a : α} (hp : p.Leads h bad post s)
    (hrun : p.run h s = .ok (a, t)) : post a t := by
  simpa only [Leads, hrun] using hp

end Leads

/-- What each operation a program can perform keeps, its runs keep. -/
theorem Only.leads {P : S.Op → Prop} {bad : ε → Prop} {I : σ → Prop}
    (answers : ∀ o s r t, P o → I s → h o s = .ok (r, t) → I t)
    (fails : ∀ o s e, P o → I s → h o s = .error e → bad e) {p : Prog S α} (hp : p.Only P) {s : σ}
    (hs : I s) : p.Leads h bad (fun _ => I) s := by
  induction p generalizing s with
  | pure a => exact hs
  | op o k ih =>
    exact .op (fun r t hstep => ih r (hp.2 r) (answers o s r t hp.1 hs hstep))
      fun e hstep => fails o s e hp.1 hs hstep

/-! ## The operations under answers that can be given -/

/-- While the answers are such that `A` admits them, every operation meets `P`. -/
def Given (A : (o : S.Op) → S.Res o → Prop) (P : S.Op → Prop) : Prog S α → Prop
  | .pure _ => True
  | .op o k => P o ∧ ∀ r, A o r → (k r).Given A P

namespace Given

variable {A : (o : S.Op) → S.Res o → Prop} {P : S.Op → Prop}

theorem of_only {p : Prog S α} (hp : p.Only P) : p.Given A P := by
  induction p with
  | pure a => trivial
  | op o k ih => exact ⟨hp.1, fun r _ => ih r (hp.2 r)⟩

theorem bind {p : Prog S α} {f : α → Prog S β} (hp : p.Given A P) (hf : ∀ a, (f a).Given A P) :
    (p >>= f).Given A P := by
  induction p with
  | pure a => exact hf a
  | op o k ih => exact ⟨hp.1, fun r hr => ih r (hp.2 r hr)⟩

theorem bind_op {o : S.Op} {f : S.Res o → Prog S α} (ho : P o) (hf : ∀ r, A o r → (f r).Given A P) :
    (Prog.op o .pure >>= f).Given A P := ⟨ho, hf⟩

/-- An operation whose answer is of no matter. -/
theorem step {o : S.Op} {f : S.Res o → Prog S α} (ho : P o) (hf : ∀ r, (f r).Given A P) :
    (Prog.op o .pure >>= f).Given A P := ⟨ho, fun r _ => hf r⟩

theorem ite {c : Prop} [Decidable c] {p q : Prog S α} (hp : c → p.Given A P)
    (hq : ¬ c → q.Given A P) : Given A P (if c then p else q) := by
  by_cases h : c
  · simpa only [h, ↓reduceIte] using hp h
  · simpa only [h, ↓reduceIte] using hq h

theorem answer {o : S.Op} {f : S.Res o → Prog S α}
    (h : (Prog.op o .pure >>= f).Given A P) {r : S.Res o} (hr : A o r) : (f r).Given A P := h.2 r hr

theorem then_branch {c : Prop} [Decidable c] {p q : Prog S α}
    (h : Given A P (if c then p else q)) (hc : c) : p.Given A P := by
  simpa only [if_pos hc] using h

theorem else_branch {c : Prop} [Decidable c] {p q : Prog S α} (h : Given A P (if c then p else q))
    (hc : ¬ c) : q.Given A P := by
  simpa only [if_neg hc] using h

theorem mono {Q : S.Op → Prop} (weaker : ∀ o, P o → Q o) {p : Prog S α} (hp : p.Given A P) :
    p.Given A Q := by
  induction p with
  | pure a => trivial
  | op o k ih => exact ⟨weaker o hp.1, fun r hr => ih r (hp.2 r hr)⟩

/-- A run whose answers are admitted fails only where an operation that meets `P` does. -/
theorem leads {bad : ε → Prop} {I : σ → Prop}
    (answers : ∀ o s r t, P o → I s → h o s = .ok (r, t) → A o r ∧ I t)
    (fails : ∀ o s e, P o → h o s = .error e → bad e) {p : Prog S α} (hp : p.Given A P) {s : σ}
    (hs : I s) : p.Leads h bad (fun _ _ => True) s := by
  induction p generalizing s with
  | pure a => trivial
  | op o k ih =>
    apply Leads.op
    · intro r t hstep
      obtain ⟨admitted, ht⟩ := answers o s r t hp.1 hs hstep
      exact ih r (hp.2 r admitted) ht
    · exact fun e hstep => fails o s e hp.1 hstep

end Given

/-- As `Given`, but only up to the next of some programs, which it may go on with. -/
inductive Upto (A : (o : S.Op) → S.Res o → Prop) (P : S.Op → Prop) {ι : Type} (point : ι → Prog S α) :
    Prog S α → Prop where
  | pure (a : α) : Upto A P point (.pure a)
  | op {o : S.Op} {k : S.Res o → Prog S α} (ho : P o) (rest : ∀ r, A o r → Upto A P point (k r)) :
      Upto A P point (.op o k)
  | point (i : ι) : Upto A P point (point i)

namespace Upto

variable {A : (o : S.Op) → S.Res o → Prop} {P : S.Op → Prop} {ι : Type} {point : ι → Prog S α}

theorem bind {p : Prog S β} {f : β → Prog S α} (hp : p.Given A P) (hf : ∀ b, (f b).Upto A P point) :
    (p >>= f).Upto A P point := by
  induction p with
  | pure b => exact hf b
  | op o k ih => exact .op hp.1 fun r hr => ih r (hp.2 r hr)

theorem of_given {p : Prog S α} (hp : p.Given A P) : p.Upto A P point := by
  induction p with
  | pure a => exact .pure a
  | op o k ih => exact .op hp.1 fun r hr => ih r (hp.2 r hr)

/-- An operation whose answer is of no matter. -/
theorem step {o : S.Op} {f : S.Res o → Prog S α} (ho : P o) (hf : ∀ r, (f r).Upto A P point) :
    (Prog.op o .pure >>= f).Upto A P point := .op ho fun r _ => hf r

theorem ite {c : Prop} [Decidable c] {p q : Prog S α} (hp : c → p.Upto A P point)
    (hq : ¬ c → q.Upto A P point) : Upto A P point (if c then p else q) := by
  by_cases h : c
  · simpa only [h, ↓reduceIte] using hp h
  · simpa only [h, ↓reduceIte] using hq h

/-- The next operation is as it should be, or one of the programs begins with it. -/
theorem next {o : S.Op} {k : S.Res o → Prog S α} (h : Upto A P point (.op o k)) :
    (P o ∧ ∀ r, A o r → (k r).Upto A P point) ∨ ∃ i, point i = .op o k := by
  generalize hp : Prog.op o k = p at h
  cases h with
  | pure a => cases hp
  | op ho rest =>
    cases hp
    exact .inl ⟨ho, rest⟩
  | point i => exact .inr ⟨i, rfl⟩

end Upto

/-! ## Paths -/

/-- The operations that lead from a program to what is left of it, with some
answers. -/
inductive Path : Prog S α → List (Entry S) → Prog S α → Prop where
  | nil {p} : Path p [] p
  | cons {o k r t q} : Path (k r) t q → Path (.op o k) (⟨o, r⟩ :: t) q

theorem Only.path {P : S.Op → Prop} {p q : Prog S α} (hp : p.Only P) {t : List (Entry S)}
    (path : Path p t q) :
    ∀ e ∈ t, P e.1 := by
  induction path with
  | nil => exact fun e he => absurd he List.not_mem_nil
  | cons rest ih =>
    intro e he
    rcases List.mem_cons.mp he with rfl | later
    · exact hp.1
    · exact ih (hp.2 _) e later

theorem Given.path {A : (o : S.Op) → S.Res o → Prop} {P : S.Op → Prop} {p q : Prog S α}
    (hp : p.Given A P)
    {t : List (Entry S)} (path : Path p t q) (admitted : ∀ e ∈ t, A e.1 e.2) : ∀ e ∈ t, P e.1 := by
  induction path with
  | nil => exact fun e he => absurd he List.not_mem_nil
  | @cons o k r t q rest ih =>
    intro e he
    rcases List.mem_cons.mp he with rfl | later
    · exact hp.1
    · have here : A o r := admitted ⟨o, r⟩ (by simp)
      exact ih (hp.2 r here) (fun e he => admitted e (by simp [he])) e later

/-- A monitor sees every operation with its answer. Whatever the answers, it is
in a good state at the end of the program. -/
def Watched {κ : Type} (δ : Entry S → κ → κ) (good : κ → Prop) : Prog S α → κ → Prop
  | .pure _, x => good x
  | .op o k, x => ∀ r, (k r).Watched δ good (δ ⟨o, r⟩ x)

namespace Watched

variable {κ : Type} {δ : Entry S → κ → κ} {good mid : κ → Prop} {x : κ}

theorem bind {p : Prog S α} {f : α → Prog S β} (hp : p.Watched δ mid x)
    (hf : ∀ a y, mid y → (f a).Watched δ good y) : (p >>= f).Watched δ good x := by
  induction p generalizing x with
  | pure a => exact hf a x hp
  | op o k ih => exact fun r => ih r (hp r)

/-- Operations that the monitor passes over. -/
theorem of_only {p : Prog S α} (h : p.Only fun o => ∀ r, δ ⟨o, r⟩ x = x) : p.Watched δ (· = x) x := by
  induction p with
  | pure a => rfl
  | op o k ih =>
    intro r
    rw [h.1 r]
    exact ih r (h.2 r)

theorem ite {c : Prop} [Decidable c] {p q : Prog S α} (hp : c → p.Watched δ good x)
    (hq : ¬ c → q.Watched δ good x) : Watched δ good (if c then p else q) x := by
  by_cases h : c
  · simpa only [h, ↓reduceIte] using hp h
  · simpa only [h, ↓reduceIte] using hq h

theorem path {p : Prog S α} {a : α} {t : List (Entry S)} (hp : p.Watched δ good x)
    (path : Path p t (.pure a)) : good (t.foldl (fun y e => δ e y) x) := by
  generalize hq : (Prog.pure a : Prog S α) = q at path
  induction path generalizing x with
  | nil =>
    subst hq
    exact hp
  | cons rest ih => exact ih (hp _) hq

end Watched

end Prog

/-! ## Interference -/

/-- What an operation may answer and do, when the answer is not determined. -/
abbrev Action (S : Signature) (σ : Type) := (o : S.Op) → σ → S.Res o → σ → Prop

/-- The environment of a program and the states in which each of its
operations may be performed. -/
structure Rules (S : Signature) (σ : Type) where
  act : Action S σ
  rely : σ → σ → Prop
  legal : S.Op → σ → Prop

variable {R : Rules S σ}

def Stable (R : Rules S σ) (P : σ → Prop) : Prop := ∀ s s', P s → R.rely s s' → P s'

theorem Stable.reach {P : σ → Prop} (hP : Stable R P) {s s' : σ} (hs : P s)
    (hrely : Relation.ReflTransGen R.rely s s') : P s' := by
  induction hrely with
  | refl => exact hs
  | tail _ step ih => exact hP _ _ ih step

theorem Stable.and {P Q : σ → Prop} (hP : Stable R P) (hQ : Stable R Q) :
    Stable R fun s => P s ∧ Q s :=
  fun s s' h step => ⟨hP s s' h.1 step, hQ s s' h.2 step⟩

/-- From `s` on, whatever the environment does between operations, every
operation is legal when it is performed and `post` holds at the end. -/
def Guarded (R : Rules S σ) (post : α → σ → Prop) : Prog S α → σ → Prop
  | .pure a, s => ∀ s', Relation.ReflTransGen R.rely s s' → post a s'
  | .op o k, s => ∀ s', Relation.ReflTransGen R.rely s s' →
      R.legal o s' ∧ ∀ r s'', R.act o s' r s'' → Guarded R post (k r) s''

namespace Guarded

variable {post : α → σ → Prop}

theorem rely {p : Prog S α} {s s' : σ} (h : Guarded R post p s) (step : R.rely s s') :
    Guarded R post p s' := by
  cases p with
  | pure a => exact fun t ht => h t (.head step ht)
  | op o k => exact fun t ht => h t (.head step ht)

theorem legal {o : S.Op} {k : S.Res o → Prog S α} {s : σ} (h : Guarded R post (.op o k) s) :
    R.legal o s := (h s .refl).1

theorem act {o : S.Op} {k : S.Res o → Prog S α} {s s' : σ} {r : S.Res o}
    (h : Guarded R post (.op o k) s) (step : R.act o s r s') : Guarded R post (k r) s' :=
  (h s .refl).2 r s' step

theorem done {a : α} {s : σ} (h : Guarded R post (.pure a) s) : post a s := h s .refl

theorem pure {P : σ → Prop} (stable : Stable R P) {a : α} (hpost : ∀ s, P s → post a s) {s : σ}
    (hs : P s) : Guarded R post (.pure a) s :=
  fun _ ht => hpost _ (stable.reach hs ht)

/-- An assertion the environment keeps carries a program over one operation. -/
theorem op {P : σ → Prop} (stable : Stable R P) {o : S.Op} {k : S.Res o → Prog S α}
    (hlegal : ∀ s, P s → R.legal o s)
    (hnext : ∀ s r s', P s → R.act o s r s' → Guarded R post (k r) s') {s : σ} (hs : P s) :
    Guarded R post (.op o k) s :=
  fun t ht => ⟨hlegal t (stable.reach hs ht), fun r t' step => hnext t r t' (stable.reach hs ht) step⟩

theorem mono {p : Prog S α} {more : α → σ → Prop} {s : σ} (h : Guarded R post p s)
    (sub : ∀ a s, post a s → more a s) : Guarded R more p s := by
  induction p generalizing s with
  | pure a => exact fun t ht => sub a t (h t ht)
  | op o k ih =>
    intro t ht
    obtain ⟨legal, next⟩ := h t ht
    exact ⟨legal, fun r u step => ih r (next r u step)⟩

theorem bind {p : Prog S α} {f : α → Prog S β} {last : β → σ → Prop} {s : σ} (hp : Guarded R post p s)
    (hf : ∀ a t, post a t → Guarded R last (f a) t) : Guarded R last (p >>= f) s := by
  induction p generalizing s with
  | pure a => exact hf a s hp.done
  | op o k ih =>
    intro t ht
    obtain ⟨legal, next⟩ := hp t ht
    exact ⟨legal, fun r u step => ih r (next r u step)⟩

theorem ite {c : Prop} [Decidable c] {p q : Prog S α} {s : σ} (hp : c → Guarded R post p s)
    (hq : ¬ c → Guarded R post q s) : Guarded R post (if c then p else q) s := by
  by_cases h : c
  · simpa only [h, ↓reduceIte] using hp h
  · simpa only [h, ↓reduceIte] using hq h

/-- Operations that keep an assertion the environment keeps. -/
theorem invariant {P : σ → Prop} {Q : S.Op → Prop} (stable : Stable R P)
    (keeps : ∀ o, Q o → ∀ s, P s → R.legal o s ∧ ∀ r s', R.act o s r s' → P s') {p : Prog S α}
    (only : p.Only Q) {s : σ} (hs : P s) : Guarded R (fun _ => P) p s := by
  induction p generalizing s with
  | pure a => exact .pure stable (fun _ h => h) hs
  | op o k ih =>
    apply Guarded.op stable _ _ hs
    · intro t ht
      exact (keeps o only.1 t ht).1
    · intro t r t' ht act
      exact ih r (only.2 r) ((keeps o only.1 t ht).2 r t' act)

end Guarded

/-! ## Runs of partial steps -/

section Runs

variable {ι : Type} (step : ι → σ → Except ε σ)

/-- Every step is defined and related to its outcome by `R`. -/
def Throughout (R : ι → σ → σ → Prop) : List ι → σ → Prop
  | [], _ => True
  | i :: is, s => ∃ s', step i s = .ok s' ∧ R i s s' ∧ Throughout R is s'

/-- `C` holds before every step, as far as the run goes. -/
def Along (C : ι → σ → Prop) : List ι → σ → Prop
  | [], _ => True
  | i :: is, s => C i s ∧ ∀ s', step i s = .ok s' → Along C is s'

/-- `P` holds in every state that the run reaches. -/
def Always (P : σ → Prop) : List ι → σ → Prop
  | [], s => P s
  | i :: is, s => P s ∧ ∀ s', step i s = .ok s' → Always P is s'

instance Along.decidable {step : ι → σ → Except ε σ} {C : ι → σ → Prop} [∀ i s, Decidable (C i s)] :
    ∀ is s, Decidable (Along step C is s)
  | [], _ => .isTrue trivial
  | i :: is, s =>
    match h : step i s with
    | .ok s' =>
      have : Decidable (Along step C is s') := Along.decidable is s'
      decidable_of_iff (C i s ∧ Along step C is s') (by simp [Along, h])
    | .error _ => decidable_of_iff (C i s) (by simp [Along, h])

def runAll : List ι → σ → Except ε σ
  | [], s => .ok s
  | i :: is, s =>
    match step i s with
    | .ok s => runAll is s
    | .error e => .error e

variable {step} {R : ι → σ → σ → Prop} {C : ι → σ → Prop}

theorem Throughout.run {P : σ → Prop} {is : List ι} {s : σ}
    (h : Throughout step (fun _ _ s => P s) is s) (hs : P s) :
    ∃ s', runAll step is s = .ok s' ∧ P s' := by
  induction is generalizing s with
  | nil => exact ⟨s, rfl, hs⟩
  | cons i is ih =>
    obtain ⟨s', hrun, hP, rest⟩ := h
    obtain ⟨t, ht, hPt⟩ := ih rest hP
    exact ⟨t, by simpa [runAll, hrun] using ht, hPt⟩

/-- What the last step of a run does. -/
theorem Throughout.last {is : List ι} {i : ι} {s : σ} (h : Throughout step R (is ++ [i]) s) :
    ∃ t t', runAll step (is ++ [i]) s = .ok t' ∧ R i t t' := by
  induction is generalizing s with
  | nil =>
    obtain ⟨t, hstep, hR, -⟩ := h
    exact ⟨s, t, by simp [runAll, hstep], hR⟩
  | cons j is ih =>
    obtain ⟨mid, hstep, -, rest⟩ := h
    obtain ⟨t, t', hrun, hR⟩ := ih rest
    exact ⟨t, t', by simpa [runAll, hstep] using hrun, hR⟩

theorem along_of_forall {is : List ι} (h : ∀ i ∈ is, ∀ s, C i s) (s : σ) : Along step C is s := by
  induction is generalizing s with
  | nil => trivial
  | cons i is ih =>
    exact ⟨h i (by simp) s, fun s' _ => ih (fun j hj => h j (by simp [hj])) s'⟩

/-- What every step that meets the condition keeps, a whole run keeps. -/
theorem Along.invariant (I : σ → Prop)
    (hstep : ∀ i s s', I s → C i s → step i s = .ok s' → I s') {is : List ι} {s t : σ} (hs : I s)
    (along : Along step C is s) (hrun : runAll step is s = .ok t) : I t := by
  induction is generalizing s with
  | nil =>
    obtain rfl : s = t := by simpa [runAll] using hrun
    exact hs
  | cons i is ih =>
    simp only [runAll] at hrun
    cases hi : step i s with
    | error e => simp [hi] at hrun
    | ok s' =>
      simp only [hi] at hrun
      exact ih (hstep i s s' hs along.1 hi) (along.2 s' hi) hrun

/-- What a step guarantees where the condition is met. -/
theorem Along.guarantees {D : ι → σ → Prop} (I : σ → Prop)
    (hstep : ∀ i s s', I s → C i s → step i s = .ok s' → I s') (gives : ∀ i s, I s → C i s → D i s)
    {is : List ι} {s : σ} (hs : I s) (along : Along step C is s) : Along step D is s := by
  induction is generalizing s with
  | nil => trivial
  | cons i is ih =>
    exact ⟨gives i s hs along.1, fun s' hrun => ih (hstep i s s' hs along.1 hrun) (along.2 s' hrun)⟩

theorem Along.always {P : σ → Prop} (I : σ → Prop)
    (hstep : ∀ i s s', I s → C i s → step i s = .ok s' → I s') (holds : ∀ s, I s → P s)
    {is : List ι} {s : σ} (hs : I s) (along : Along step C is s) : Always step P is s := by
  induction is generalizing s with
  | nil => exact holds s hs
  | cons i is ih =>
    exact ⟨holds s hs, fun s' hrun => ih (hstep i s s' hs along.1 hrun) (along.2 s' hrun)⟩

theorem Always.last {P : σ → Prop} {is : List ι} {s t : σ} (h : Always step P is s)
    (hrun : runAll step is s = .ok t) : P t := by
  induction is generalizing s with
  | nil =>
    obtain rfl : s = t := by simpa [runAll] using hrun
    exact h
  | cons i is ih =>
    simp only [runAll] at hrun
    cases hi : step i s with
    | error e => simp [hi] at hrun
    | ok s' =>
      simp only [hi] at hrun
      exact ih (h.2 s' hi) hrun

theorem Always.now {P : σ → Prop} {is : List ι} {s : σ} (h : Always step P is s) : P s := by
  cases is with
  | nil => exact h
  | cons i is => exact h.1

/-- The condition is exact when a step that does not meet it breaks `P`. -/
theorem always_iff_along {P : σ → Prop} (I : σ → Prop)
    (hstep : ∀ i s s', I s → C i s → step i s = .ok s' → I s') (holds : ∀ s, I s → P s)
    (breaks : ∀ i s, I s → ¬ C i s → ∃ s', step i s = .ok s' ∧ ¬ P s') {is : List ι} {s : σ}
    (hs : I s) : Always step P is s ↔ Along step C is s := by
  induction is generalizing s with
  | nil => exact iff_of_true (holds s hs) trivial
  | cons i is ih =>
    constructor
    · rintro ⟨-, rest⟩
      have meets : C i s := by
        apply Classical.byContradiction
        intro broken
        obtain ⟨s', hrun, hP⟩ := breaks i s hs broken
        exact hP (rest s' hrun).now
      exact ⟨meets, fun s' hrun => (ih (hstep i s s' hs meets hrun)).mp (rest s' hrun)⟩
    · exact Along.always I hstep holds hs

theorem throughout_of_along (I : σ → Prop)
    (hstep : ∀ i s, I s → C i s → ∃ s', step i s = .ok s' ∧ R i s s' ∧ I s') {is : List ι} {s : σ}
    (hs : I s) (along : Along step C is s) : Throughout step R is s := by
  induction is generalizing s with
  | nil => trivial
  | cons i is ih =>
    obtain ⟨s', hrun, hrel, hinv⟩ := hstep i s hs along.1
    exact ⟨s', hrun, hrel, ih hinv (along.2 s' hrun)⟩

theorem along_of_throughout (I : σ → Prop)
    (hstep : ∀ i s s', I s → step i s = .ok s' → R i s s' → C i s ∧ I s') {is : List ι} {s : σ}
    (hs : I s) (through : Throughout step R is s) : Along step C is s := by
  induction is generalizing s with
  | nil => trivial
  | cons i is ih =>
    obtain ⟨s', hrun, hrel, rest⟩ := through
    obtain ⟨hC, hinv⟩ := hstep i s s' hs hrun hrel
    refine ⟨hC, ?_⟩
    intro t ht
    obtain rfl : s' = t := by simpa [hrun] using ht
    exact ih hinv rest

end Runs

end Program
