import Mathlib.Logic.Function.Basic

/-!
# Handles of threads

A table records for each handle the thread it stands for, zero for none. Some
threads clear their own handle when they are done, others are stopped: a signal
is sent, the thread ends, it is joined and the handle is cleared.

* `Table.Settled`: a handle stands for the one thread that has its role.
* `Table.Alone`: what threads do on their own, which keeps a table settled.
* `Table.Pending`, `Table.Ending`: between the start of a thread and the store
  of its handle, and between its signal and its join.
* `Table.OwnedBut`: but for the thread whose handle is to be stored, a thread
  at work has its handle or has been sent a signal.
-/

namespace HandleTable

variable {H T : Type}

structure Table (H T : Type) where
  recorded : H → T
  /-- the handle whose work a thread does -/
  role : T → Option H
  /-- created and not yet joined -/
  joinable : T → Bool
  /-- a signal is on its way -/
  killed : T → Bool

namespace Table

section Operations

variable [DecidableEq H] [DecidableEq T]

def record (h : H) (t : T) (v : Table H T) : Table H T :=
  { v with recorded := Function.update v.recorded h t }

def create (h : H) (t : T) (v : Table H T) : Table H T :=
  { v with role := Function.update v.role t (some h), joinable := Function.update v.joinable t true }

def kill (t : T) (v : Table H T) : Table H T := { v with killed := Function.update v.killed t true }

def join (t : T) (v : Table H T) : Table H T :=
  { v with joinable := Function.update v.joinable t false }

def dismiss (t : T) (v : Table H T) : Table H T := { v with role := Function.update v.role t none }

def gone (t : T) (v : Table H T) : Table H T :=
  { v with role := Function.update v.role t none, killed := Function.update v.killed t false }

omit [DecidableEq H] in
theorem gone_self {v : Table H T} {t : T} (done : v.role t = none) (unkilled : v.killed t = false) :
    v.gone t = v := by
  have role : Function.update v.role t none = v.role := by simp [← done]
  have killed : Function.update v.killed t false = v.killed := by simp [← unkilled]
  rw [gone, role, killed]

end Operations

variable [Zero T]

/-- A handle is recorded exactly while a thread does its work. -/
def Truthful (v : Table H T) : Prop := ∀ h, v.recorded h ≠ 0 ↔ ∃ t, v.role t = some h

structure Settled (v : Table H T) : Prop where
  owns : ∀ t h, v.role t = some h ↔ t = v.recorded h ∧ t ≠ 0
  joinable : ∀ t h, v.role t = some h → v.joinable t = true
  unkilled : ∀ t, v.killed t = false

theorem Settled.truthful {v : Table H T} (settled : v.Settled) : v.Truthful := by
  intro h
  constructor
  · intro recorded
    exact ⟨v.recorded h, (settled.owns _ h).mpr ⟨rfl, recorded⟩⟩
  · rintro ⟨t, role⟩
    obtain ⟨rfl, nonzero⟩ := (settled.owns t h).mp role
    exact nonzero

/-- The handle of a thread has been read, which may have cleared it since. -/
structure Held (h : H) (t : T) (v : Table H T) : Prop where
  settled : v.Settled
  nonzero : t ≠ 0
  joinable : v.joinable t = true
  owner : v.recorded h = t ∨ v.recorded h = 0 ∧ v.role t = none

theorem Settled.held {v : Table H T} {h : H} (settled : v.Settled) (nonzero : v.recorded h ≠ 0) :
    v.Held h (v.recorded h) :=
  ⟨settled, nonzero, settled.joinable _ h ((settled.owns _ h).mpr ⟨rfl, nonzero⟩), .inl rfl⟩

/-- Where a thread has work to do, the handle is its own or a signal is on its
way, unless it is the thread `new`. -/
def OwnedBut (new : Option T) (v : Table H T) : Prop :=
  ∀ t h, v.role t = some h → some t ≠ new → v.killed t = true ∨ v.recorded h = t

theorem Settled.owned {v : Table H T} (settled : v.Settled) (new : Option T) : v.OwnedBut new :=
  fun t h role _ => .inr ((settled.owns t h).mp role).1.symm

theorem Held.owned {v : Table H T} {h : H} {t : T} (held : v.Held h t) (new : Option T) :
    v.OwnedBut new :=
  held.settled.owned new

variable [DecidableEq H] [DecidableEq T]

/-- A thread ends by its signal. A thread of one of the handles `own` clears
its handle, and is then done unless it has been sent a signal. -/
inductive Alone (own : H → Prop) (v : Table H T) : Table H T → Prop
  | ended {t : T} (killed : v.killed t = true) : Alone own v (v.gone t)
  | finished {t : T} {h : H} (mine : own h) (role : v.role t = some h)
      (owner : v.killed t = true ∨ v.recorded h = t) : Alone own v ((v.record h 0).dismiss t)
  | cleared {t : T} {h : H} (mine : own h) (role : v.role t = some h) (killed : v.killed t = true) :
      Alone own v (v.record h 0)

variable {own : H → Prop} {v v' : Table H T} {h g : H} {t : T}

theorem Alone.keeps (alone : Alone own v v') (other : ¬ own h) : v'.recorded h = v.recorded h := by
  cases alone with
  | ended => rfl
  | finished mine | cleared mine =>
    refine Function.update_of_ne ?_ _ _
    rintro rfl
    exact other mine

theorem Alone.zero (alone : Alone own v v') (zero : v.recorded h = 0) : v'.recorded h = 0 := by
  cases alone with
  | ended => exact zero
  | @finished _ g | @cleared _ g =>
    by_cases same : h = g
    · subst same
      exact Function.update_self ..
    · exact (Function.update_of_ne same _ _).trans zero

/-- A thread that ends its work clears the handle. -/
theorem Settled.finish (settled : v.Settled) (role : v.role t = some h) :
    ((v.record h 0).dismiss t).Settled := by
  have owns := settled.owns
  obtain ⟨rfl, nonzero⟩ := (owns t h).mp role
  constructor
  · intro u g
    simp only [dismiss, record, Function.update_apply]
    grind
  · intro u g working
    simp only [dismiss, record, Function.update_apply] at working ⊢
    exact settled.joinable u g (by grind)
  · exact settled.unkilled

theorem Settled.alone (settled : v.Settled) (alone : Alone own v v') : v'.Settled := by
  cases alone with
  | @ended t killed | @cleared t _ _ _ killed => simp [settled.unkilled t] at killed
  | finished _ role => exact settled.finish role

/-! ## A thread is started -/

theorem Settled.create (settled : v.Settled) (empty : v.recorded h = 0) (nonzero : t ≠ 0)
    (free : v.role t = none) : ((v.create h t).record h t).Settled := by
  have owns := settled.owns
  constructor
  · intro u g
    simp only [Table.create, record, Function.update_apply]
    grind
  · intro u g working
    have joinable := settled.joinable u g
    simp only [Table.create, record, Function.update_apply] at working ⊢
    grind
  · exact settled.unkilled

/-- Only the store of the handle is missing. -/
def Pending (h : H) (t : T) (v : Table H T) : Prop :=
  (v.record h t).Settled ∧ (t = 0 ∨ v.recorded h = 0)

omit [DecidableEq T] in
/-- All but the thread that is started have their handles. -/
theorem Pending.owned (pending : v.Pending h t) {new : Option T} (named : t = 0 ∨ new = some t) :
    v.OwnedBut new := by
  intro u g role other
  obtain ⟨same, nonzero⟩ := (pending.1.owns u g).mp role
  have apart : g ≠ h := by
    rintro rfl
    have started : u = t := same.trans (Function.update_self ..)
    rcases named with zero | rfl
    · exact nonzero (started.trans zero)
    · exact other (congrArg some started)
  exact .inr ((Function.update_of_ne apart _ _).symm.trans same.symm)

theorem Pending.alone (pending : v.Pending h t) (alone : Alone own v v') : v'.Pending h t := by
  obtain ⟨settled, free⟩ := pending
  cases alone with
  | @ended u killed | @cleared u _ _ _ killed =>
    have unkilled : v.killed u = false := settled.unkilled u
    simp [unkilled] at killed
  | @finished u g mine role owner =>
    have unkilled : v.killed u = false := settled.unkilled u
    have recorded : v.recorded g = u := by simpa [unkilled] using owner
    have owns := (settled.owns u g).mp role
    have other : g ≠ h := by
      rintro rfl
      simp only [record, Function.update_self] at owns
      grind
    have finish := settled.finish (t := u) (h := g) role
    constructor
    · simpa [record, dismiss, Function.update_comm other] using finish
    · simpa [record, dismiss, other.symm] using free

/-! ## A thread is stopped -/

theorem Held.alone (held : v.Held h t) (alone : Alone own v v') : v'.Held h t := by
  have settled := held.settled.alone alone
  obtain ⟨before, nonzero, joinable, owner⟩ := held
  cases alone with
  | @ended u killed | @cleared u _ _ _ killed => simp [before.unkilled u] at killed
  | @finished u g mine role =>
    refine ⟨settled, nonzero, joinable, ?_⟩
    have owns := before.owns
    simp only [record, dismiss, Function.update_apply]
    grind

/-- The signal has been sent, and the thread may have ended. -/
structure Ending (h : H) (t : T) (v : Table H T) : Prop where
  settled : ((v.record h 0).gone t).Settled
  joinable : v.joinable t = true
  role : v.role t = none ∨ v.role t = some h ∧ v.killed t = true

/-- Without its handle and the thread a table is settled. -/
theorem Held.without (held : v.Held h t) : ((v.record h 0).gone t).Settled := by
  obtain ⟨settled, nonzero, -, owner⟩ := held
  have owns := settled.owns
  have working : v.recorded h = t → v.role t = some h := fun own => (owns t h).mpr ⟨own.symm, nonzero⟩
  constructor
  · intro u g
    simp only [gone, record, Function.update_apply]
    grind
  · intro u g working
    simp only [gone, record, Function.update_apply] at working ⊢
    exact settled.joinable u g (by grind)
  · intro u
    simp only [gone, record, Function.update_apply, settled.unkilled, ite_self]

/-- The signal is lost where the thread has ended. -/
theorem Held.lost (held : v.Held h t) (ended : v.role t = none) : v.Ending h t :=
  ⟨held.without, held.joinable, .inl ended⟩

theorem Held.kill (held : v.Held h t) : (v.kill t).Ending h t := by
  refine ⟨by simpa [Table.kill, gone, record] using held.without, held.joinable, ?_⟩
  rcases held.owner with own | ⟨-, ended⟩
  · exact .inr ⟨(held.settled.owns t h).mpr ⟨own.symm, held.nonzero⟩, Function.update_self ..⟩
  · exact .inl ended

theorem Ending.owned (ending : v.Ending h t) (new : Option T) : v.OwnedBut new := by
  intro u g role _
  by_cases same : u = t
  · subst same
    rcases ending.role with ended | ⟨-, killed⟩
    · cases ended.symm.trans role
    · exact .inl killed
  · have work : ((v.record h 0).gone t).role u = some g := by simpa [gone, record, same] using role
    obtain ⟨own, nonzero⟩ := (ending.settled.owns u g).mp work
    have apart : g ≠ h := by
      rintro rfl
      exact nonzero (own.trans (Function.update_self ..))
    exact .inr ((Function.update_of_ne apart _ _).symm.trans own.symm)

theorem Ending.alone (ending : v.Ending h t) (alone : Alone own v v') : v'.Ending h t := by
  obtain ⟨settled, joinable, role⟩ := ending
  have unkilled (u : T) (other : u ≠ t) : v.killed u = false := by
    simpa [gone, record, other] using settled.unkilled u
  cases alone with
  | @ended u killed =>
    have same : u = t := by
      by_contra other
      simp [unkilled u other] at killed
    subst same
    exact ⟨by simpa [gone, record] using settled, joinable, .inl (by simp [gone])⟩
  | @cleared u g mine working killed =>
    have same : u = t := by
      by_contra other
      simp [unkilled u other] at killed
    subst same
    obtain rfl : g = h := by simpa [working, killed] using role
    exact ⟨by simpa [gone, record] using settled, joinable, role⟩
  | @finished u g mine working owner =>
    by_cases same : u = t
    · subst same
      obtain ⟨rfl, -⟩ : g = h ∧ v.killed u = true := by simpa [working] using role
      exact ⟨by simpa [gone, record, dismiss] using settled, joinable, .inl (by simp [dismiss])⟩
    · have work : ((v.record h 0).gone t).role u = some g := by
        simpa [gone, record, same] using working
      have other : g ≠ h := by
        rintro rfl
        have owns := (settled.owns u g).mp work
        simp only [gone, record, Function.update_self] at owns
        exact owns.2 owns.1
      have finish := settled.finish work
      refine ⟨?_, joinable, by simpa [dismiss, record, Ne.symm same] using role⟩
      simpa [gone, record, dismiss, Function.update_comm other,
        Function.update_comm same] using finish

/-- A thread that has ended is joined, and its handle is still to be cleared. -/
theorem Ending.join (ending : v.Ending h t) (done : v.role t = none) (unkilled : v.killed t = false) :
    (v.join t).Pending h 0 := by
  have settled := ending.settled
  rw [gone_self (v := v.record h 0) done unkilled] at settled
  refine ⟨⟨settled.owns, ?_, settled.unkilled⟩, .inl rfl⟩
  intro u g working
  have other : u ≠ t := by
    rintro rfl
    cases done.symm.trans working
  exact (Function.update_of_ne other _ _).trans (settled.joinable u g working)

end Table

end HandleTable
