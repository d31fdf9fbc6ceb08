import AutoTest.Recursion
import AutoTest.Simulation

/-!
# Calls that can wait

A program that calls others last, between operations that the callees can be
moved past, may as well end first and leave its calls for afterwards. So calls
inside each other are calls one after the other, up to an equivalence of
states.

* `Defers`: what the operations have to keep.
* `enter_defers`: a program, and then its calls.
* `unnested`: nested calls are a run of programs that make none.
-/

namespace Program

variable {S : Signature} {α β γ κ ε σ : Type}

/-! ## Results that agree -/

/-- Both fail in the same way, or both end, and then so related. -/
inductive Alike (P : α → β → Prop) : Except ε α → Except ε β → Prop where
  | ok {a : α} {b : β} (related : P a b) : Alike P (.ok a) (.ok b)
  | error (e : ε) : Alike P (.error e) (.error e)

namespace Alike

variable {P : α → β → Prop} {x : Except ε α} {y : Except ε β}

theorem trans {Q : β → γ → Prop} {T : α → γ → Prop} {z : Except ε γ}
    (first : Alike P x y) (second : Alike Q y z) (compose : ∀ a b c, P a b → Q b c → T a c) :
    Alike T x z := by
  cases first with
  | error e =>
    cases second
    exact .error e
  | ok related =>
    cases second with
    | ok next => exact .ok (compose _ _ _ related next)

theorem map {γ δ : Type} {Q : γ → δ → Prop} {f : α → γ} {g : β → δ} (h : Alike P x y)
    (keeps : ∀ a b, P a b → Q (f a) (g b)) : Alike Q (x.map f) (y.map g) := by
  cases h with
  | ok related => exact .ok (keeps _ _ related)
  | error e => exact .error e

theorem inv (h : Alike P x y) :
    (∃ e, x = .error e ∧ y = .error e) ∨ ∃ a b, x = .ok a ∧ y = .ok b ∧ P a b := by
  cases h with
  | ok related => exact .inr ⟨_, _, rfl, rfl, related⟩
  | error e => exact .inl ⟨e, rfl, rfl⟩

theorem error_right {e : ε} (h : Alike P x (.error e)) : x = .error e := by
  cases h
  rfl

end Alike

/-- The same answer, and related states. -/
def Same (P : σ → σ → Prop) (x y : α × σ) : Prop := x.1 = y.1 ∧ P x.2 y.2

/-- Related states stay related, whatever the program. -/
theorem Prog.run_alike {h : Interp S ε σ} {P : σ → σ → Prop}
    (step : ∀ o s t, P s t → Alike (Same P) (h o s) (h o t)) (p : Prog S α) {s t : σ}
    (related : P s t) : Alike (Same P) (p.run h s) (p.run h t) := by
  induction p generalizing s t with
  | pure a => exact .ok ⟨rfl, related⟩
  | op o k ih =>
    rcases (step o s t related).inv with ⟨e, fails, other⟩ | ⟨x, ⟨r, u⟩, answer, other, same, next⟩
    · rw [Prog.run_op_error fails, Prog.run_op_error other]
      exact .error e
    · obtain rfl : x.1 = r := same
      rw [Prog.run_op_ok answer, Prog.run_op_ok other]
      exact ih x.1 next

theorem runAll_alike {f : κ → σ → Except ε σ} {P : σ → σ → Prop}
    (step : ∀ k s t, P s t → Alike P (f k s) (f k t)) (ks : List κ) {s t : σ} (related : P s t) :
    Alike P (runAll f ks s) (runAll f ks t) := by
  induction ks generalizing s t with
  | nil => exact .ok related
  | cons k ks ih =>
    simp only [runAll]
    rcases (step k s t related).inv with ⟨e, fails, other⟩ | ⟨u, v, result, other, next⟩
    · rw [fails, other]
      exact .error e
    · rw [result, other]
      exact ih next

/-! ## Programs that call last -/

/-- Up to its first call the program performs no call, and from there on
nothing but calls and `late` operations. -/
inductive Prog.CallsLast (call late : S.Op → Prop) : Prog S α → Prop where
  | last {p : Prog S α} (rest : p.Only fun o => call o ∨ late o) : CallsLast call late p
  | first {o : S.Op} {k : S.Res o → Prog S α} (own : ¬ call o)
    (later : ∀ r, (k r).CallsLast call late) :
      CallsLast call late (.op o k)

namespace Prog.CallsLast

variable {call late : S.Op → Prop}

theorem bind {p : Prog S α} {f : α → Prog S β} (own : p.Only fun o => ¬ call o)
    (later : ∀ a, (f a).CallsLast call late) : (p >>= f).CallsLast call late := by
  induction p with
  | pure a => exact later a
  | op o k ih => exact .first own.1 fun r => ih r (own.2 r)

theorem bind_op {o : S.Op} {f : S.Res o → Prog S α} (own : ¬ call o)
    (later : ∀ r, (f r).CallsLast call late) : (Prog.op o .pure >>= f).CallsLast call late :=
  .first own later

theorem of_only {p : Prog S α} (own : p.Only fun o => ¬ call o) : p.CallsLast call late := by
  induction p with
  | pure a => exact .last trivial
  | op o k ih => exact .first own.1 fun r => ih r (own.2 r)

theorem ite {c : Prop} [Decidable c] {p q : Prog S α} (hp : c → p.CallsLast call late)
    (hq : ¬ c → q.CallsLast call late) : CallsLast call late (if c then p else q) := by
  by_cases h : c
  · simpa only [h, ↓reduceIte] using hp h
  · simpa only [h, ↓reduceIte] using hq h

end Prog.CallsLast

namespace Recursion

variable (R : Recursion S κ ε σ)

/-- The body of `k`, all its calls left out. -/
def outer : κ → σ → Except ε σ := R.enter fun _ => .ok

/-- In some state, the second name calls the first. -/
def Below (k' k : κ) : Prop := ∃ s u, R.Calls (k, s) (k', u)

def IsCall (o : S.Op) : Prop := R.callee o ≠ none

/-- Every operation that is no call keeps the relation. -/
def Respects (P : σ → σ → Prop) : Prop :=
  ∀ o, R.callee o = none → ∀ s t, P s t →
    Alike (Same P) (R.under (fun _ => .ok) o s) (R.under (fun _ => .ok) o t)

variable {R} {P : σ → σ → Prop}

theorem Respects.enter (respects : R.Respects P) {f : κ → σ → Except ε σ}
    (calls : ∀ k s t, P s t → Alike P (f k s) (f k t)) (k : κ) (s t : σ) (related : P s t) :
    Alike P (R.enter f k s) (R.enter f k t) := by
  have step (o : S.Op) (s t : σ) (related : P s t) :
      Alike (Same P) (R.under f o s) (R.under f o t) := by
    cases name : R.callee o with
    | none =>
      rw [R.plain name f (fun _ => .ok) s, R.plain name f (fun _ => .ok) t]
      exact respects o name s t related
    | some k =>
      obtain ⟨r, answered⟩ := R.call name
      rw [answered, answered]
      exact (calls k s t related).map fun _ _ next => ⟨rfl, next⟩
  exact (Prog.run_alike step (R.body k) related).map fun _ _ same => same.2

theorem Respects.outer (respects : R.Respects P) (k : κ) (s t : σ) (related : P s t) :
    Alike P (R.outer k s) (R.outer k t) := respects.enter (fun _ _ _ => .ok) k s t related

theorem Respects.eval (respects : R.Respects P) (n : Nat) (k : κ) (s t : σ) (related : P s t) :
    Alike P (R.eval n k s) (R.eval n k t) := by
  induction n generalizing k s t with
  | zero => exact .error R.stuck
  | succ n ih => exact respects.enter ih k s t related

/-! ## Effects that can be moved -/

variable (R)

/-- All that the programs do can be done after the effect as well as before it. -/
structure Moves (E : σ → σ → Prop) (g : σ → σ) : Prop where
  equal : ∀ s t, E s t → E (g s) (g t)
  past : R.Respects fun s t => E (g s) t

/-- Each program calls last, up to effects that can be moved past the calls. -/
structure Defers (E : σ → σ → Prop) (late : S.Op → Prop) : Prop where
  equiv : Equivalence E
  respects : R.Respects E
  body : ∀ k, (R.body k).CallsLast R.IsCall late
  late : ∀ o, late o → R.callee o = none ∧
    ∃ r g, R.Moves E g ∧ ∀ s, R.under (fun _ => .ok) o s = .ok (r, g s)

variable {R} {E : σ → σ → Prop} {late : S.Op → Prop}

theorem Moves.comp {g g' : σ → σ} (equiv : Equivalence E) (first : R.Moves E g)
    (second : R.Moves E g') : R.Moves E (g' ∘ g) where
  equal s t related := second.equal _ _ (first.equal s t related)
  past o own s t related := by
    have here := first.past o own s (g s) (equiv.refl _)
    have there := second.past o own (g s) t related
    apply here.trans there
    intro a b c hab hbc
    exact ⟨hab.1.trans hbc.1, equiv.trans (second.equal _ _ hab.2) hbc.2⟩

/-- A name, all that it leads to, and then what the other names lead to. -/
theorem led_join {r : κ → κ → Prop} {k : κ} {rest js more : List κ}
    (led : ∀ j ∈ js, Relation.ReflTransGen r j k) (sub : rest.Sublist more)
    (from' : ∀ j ∈ more, ∃ k' ∈ rest, Relation.ReflTransGen r j k') :
    (k :: rest).Sublist (k :: js ++ more) ∧
      ∀ j ∈ k :: js ++ more, ∃ k' ∈ k :: rest, Relation.ReflTransGen r j k' := by
  refine ⟨(sub.trans (List.sublist_append_right js more)).cons_cons k, fun j hj => ?_⟩
  rcases List.mem_append.mp hj with hj | hj
  · refine ⟨k, by simp, ?_⟩
    rcases List.mem_cons.mp hj with rfl | hj
    · exact .refl
    · exact led j hj
  · obtain ⟨k', hk', chain⟩ := from' j hj
    exact ⟨k', by simp [hk'], chain⟩

variable (defers : R.Defers E late)
include defers

theorem Defers.trans {x y z : Except ε σ} (first : Alike E x y)
    (second : Alike E y z) : Alike E x z :=
  first.trans second fun _ _ _ => defers.equiv.trans

theorem Defers.runAll_equal (n : Nat) (ks : List κ) {s t : σ} (equal : E s t) :
    Alike E (runAll (R.eval n) ks s) (runAll (R.eval n) ks t) :=
  runAll_alike (defers.respects.eval n) ks equal

/-- From its first call on, a program does what its effect does, and then its calls. -/
theorem Defers.run_last (n : Nat) {p : Prog S α} (rest : p.Only fun o => R.IsCall o ∨ late o) :
    ∃ a g, R.Moves E g ∧ (∀ s, p.run (R.under fun _ => .ok) s = .ok (a, g s)) ∧
      ∀ s, ∃ ks, (∀ k ∈ ks, ∃ u, R.Comes p s k u) ∧
        Alike E ((p.run (R.under (R.eval n)) s).map Prod.snd) (runAll (R.eval n) ks (g s)) := by
  induction p with
  | pure a =>
    have still : R.Moves E id := ⟨fun _ _ equal => equal, defers.respects⟩
    exact ⟨a, id, still, fun _ => rfl, fun s => ⟨[], by simp, .ok (defers.equiv.refl s)⟩⟩
  | op o c ih =>
    rcases rest with ⟨call | last, later⟩
    · obtain ⟨k, name⟩ := Option.ne_none_iff_exists'.mp call
      obtain ⟨r, answered⟩ := R.call name
      obtain ⟨a, g, moves, done, calls⟩ := ih r (later r)
      refine ⟨a, g, moves, fun s => (Prog.run_op_ok (answered _ s)).trans (done s), fun s => ?_⟩
      rcases (moves.past.eval n k s (g s) (defers.equiv.refl _)).inv with
        ⟨e, result, other⟩ | ⟨u, v, result, other, equal⟩
      · have fails : R.under (R.eval n) o s = .error e := by rw [answered, result, Except.map]
        refine ⟨[k], fun k' hk' => ⟨s, List.mem_singleton.mp hk' ▸ .here name⟩, ?_⟩
        rw [Prog.run_op_error fails]
        simp only [runAll, other]
        exact .error e
      · have answer : R.under (R.eval n) o s = .ok (r, u) := by rw [answered, result, Except.map]
        obtain ⟨ks, comes, same⟩ := calls u
        refine ⟨k :: ks, fun k' hk' => ?_, ?_⟩
        · rcases List.mem_cons.mp hk' with rfl | more
          · exact ⟨s, .here name⟩
          · obtain ⟨w, hw⟩ := comes k' more
            exact ⟨w, .past n answer hw⟩
        · rw [Prog.run_op_ok answer]
          simp only [runAll, other]
          exact defers.trans same (defers.runAll_equal n ks equal)
    · obtain ⟨own, r, g, moves, answered⟩ := defers.late o last
      obtain ⟨a, g', moves', done, calls⟩ := ih r (later r)
      refine ⟨a, g' ∘ g, moves.comp defers.equiv moves', ?_, fun s => ?_⟩
      · exact fun s => (Prog.run_op_ok (answered s)).trans (done (g s))
      · have answer : R.under (R.eval n) o s = .ok (r, g s) := (R.plain own _ _ s).trans (answered s)
        obtain ⟨ks, comes, same⟩ := calls (g s)
        refine ⟨ks, fun k hk => ?_, ?_⟩
        · obtain ⟨w, hw⟩ := comes k hk
          exact ⟨w, .past n answer hw⟩
        · rw [Prog.run_op_ok answer]
          exact same

theorem Defers.run_calls (n : Nat) {p : Prog S α} (last : p.CallsLast R.IsCall late) (s : σ) :
    ∃ ks, (∀ k ∈ ks, ∃ u, R.Comes p s k u) ∧
      Alike E ((p.run (R.under (R.eval n)) s).map Prod.snd)
        (((p.run (R.under fun _ => .ok) s).map Prod.snd).bind (runAll (R.eval n) ks)) := by
  induction last generalizing s with
  | last rest =>
    obtain ⟨a, g, -, done, calls⟩ := defers.run_last n rest
    rw [done s]
    exact calls s
  | @first o k own later ih =>
    have plain := Classical.not_not.mp own
    have same : R.under (R.eval n) o s = R.under (fun _ => .ok) o s := R.plain plain _ _ s
    cases answer : R.under (fun _ => .ok) o s with
    | error e =>
      rw [Prog.run_op_error answer, Prog.run_op_error (same.trans answer)]
      exact ⟨[], by simp, .error e⟩
    | ok x =>
      rw [Prog.run_op_ok answer, Prog.run_op_ok (same.trans answer)]
      obtain ⟨ks, comes, alike⟩ := ih x.1 x.2
      refine ⟨ks, fun k hk => ?_, alike⟩
      obtain ⟨u, hu⟩ := comes k hk
      exact ⟨u, .past n (same.trans answer) hu⟩

/-- A program, and then its calls. -/
theorem Defers.enter_defers (n : Nat) (k : κ) (s : σ) :
    ∃ ks, (∀ k' ∈ ks, ∃ u, R.Calls (k, s) (k', u)) ∧
      Alike E (R.enter (R.eval n) k s) ((R.outer k s).bind (runAll (R.eval n) ks)) :=
  defers.run_calls n (defers.body k) s

theorem Defers.outer_alike (js : List κ) {s t : σ} (equal : E s t) :
    Alike E (runAll R.outer js s) (runAll R.outer js t) :=
  runAll_alike (fun k => defers.respects.outer k) js equal

/-- Nested calls come to the same as some names entered one after the other,
each of them without its calls: the names given, in their order, and between
them names that these lead to. -/
theorem Defers.unnested (n : Nat) (ks : List κ) (s : σ)
    (ends : runAll (R.eval n) ks s ≠ .error R.stuck) :
    ∃ js, ks.Sublist js ∧ (∀ j ∈ js, ∃ k ∈ ks, Relation.ReflTransGen R.Below j k) ∧
      Alike E (runAll (R.eval n) ks s) (runAll R.outer js s) := by
  induction n generalizing ks s with
  | zero =>
    cases ks with
    | nil => exact ⟨[], .refl _, by simp, .ok (defers.equiv.refl s)⟩
    | cons k ks => exact absurd rfl ends
  | succ n inner =>
    induction ks generalizing s with
    | nil => exact ⟨[], .refl _, by simp, .ok (defers.equiv.refl s)⟩
    | cons k rest ih =>
      obtain ⟨ks, calls, entered⟩ := defers.enter_defers n k s
      cases begun : R.outer k s with
      | error e =>
        rw [begun] at entered
        have failed : R.eval (n + 1) k s = .error e := entered.error_right
        refine ⟨k :: rest, .refl _, fun j hj => ⟨j, hj, .refl⟩, ?_⟩
        simp only [runAll, failed, begun]
        exact .error e
      | ok t =>
        rw [begun] at entered
        replace entered : Alike E (R.eval (n + 1) k s) (runAll (R.eval n) ks t) := entered
        have inside : runAll (R.eval n) ks t ≠ .error R.stuck := by
          intro stuck
          rw [stuck] at entered
          exact ends (by simp only [runAll, entered.error_right])
        obtain ⟨js, -, led, same⟩ := inner ks t inside
        have led (j : κ) (hj : j ∈ js) : Relation.ReflTransGen R.Below j k := by
          obtain ⟨k', hk', chain⟩ := led j hj
          exact chain.tail ⟨s, calls k' hk'⟩
        rcases (defers.trans entered same).inv with ⟨e, result, ended⟩ | ⟨u, v, result, ended, equal⟩
        · obtain ⟨sub, from'⟩ := led_join led (.refl rest) fun j hj => ⟨j, hj, .refl⟩
          refine ⟨k :: js ++ rest, sub, from', ?_⟩
          simp only [List.cons_append, runAll, result, begun, runAll_append, ended]
          exact .error e
        · have later : runAll (R.eval (n + 1)) rest u ≠ .error R.stuck := by
            simpa only [runAll, result] using ends
          obtain ⟨more, sub, from', next⟩ := ih u later
          obtain ⟨sub, from'⟩ := led_join led sub from'
          refine ⟨k :: js ++ more, sub, from', ?_⟩
          simp only [List.cons_append, runAll, result, begun, runAll_append, ended]
          exact defers.trans next (defers.outer_alike more equal)

end Recursion

end Program
