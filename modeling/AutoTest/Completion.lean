import AutoTest.CString

/-!
# Command completion

`command_generator` of `readline.c` hands out the entries of `gCommands` that
begin with a text, one a call, and keeps its place in static variables. Only a
null entry ends its loop, and the array has none.

* `enumerate`: calls of the generator until one answers with a null pointer.
* `completion_overruns`: every such sequence of calls reads after the array.
* `completion_terminated`: were a null pointer there, the answers would be the
  entries with the prefix, in their order.
-/

namespace AutoTest

open CString

def gCommands : List Text := [
  "help".toList, "autoConfig".toList, "add".toList, "call".toList, "changeIp".toList, "del".toList,
  "test".toList, "rec".toList, "delay".toList, "all".toList, "ioevt".toList, "ie".toList,
  "look".toList, "quit".toList, "runScript".toList, "rs".toList, "randomTime".toList, "rt".toList,
  "randomKey".toList, "rk".toList, "show".toList, "start".toList, "stop".toList, "script".toList,
  "syslog".toList, "sl".toList, "hideFeature".toList, "hf".toList, "enable".toList, "disable".toList,
  "show".toList, "s".toList, "192.168.10.".toList]

/-- The pointers from the start of the array on, a null pointer being `none`. -/
def commandAt (beyond : Nat → Option Text) (i : Nat) : Option Text :=
  if h : i < gCommands.length then some gCommands[i] else beyond i

/-- `strncmp(name, text, len) == 0`, where the length becomes a `size_t`. -/
def sameStart (len : Int) (name text : Text) : Bool :=
  let n := (len % 2 ^ 64).toNat
  name.take n = text.take n

namespace Completion

/-- The static variables of `command_generator`. -/
structure Generator where
  listIndex : Nat
  len : Int
  deriving DecidableEq, Repr

/-- What a call returns, and the indices at which it reads the table. -/
structure Answer where
  name : Option Text
  reads : List Nat
  next : Generator
  deriving DecidableEq, Repr

/-- `while (name = gCommands[list_index])`, for less than so many rounds. -/
def search (table : Nat → Option Text) (text : Text) : Nat → Generator → Option Answer
  | 0, _ => none
  | rounds + 1, g =>
    match table g.listIndex with
    | none => some ⟨none, [g.listIndex], g⟩
    | some name =>
      let next := { g with listIndex := g.listIndex + 1 }
      if sameStart g.len name text then some ⟨some name, [g.listIndex], next⟩
      else (search table text rounds next).map fun a => { a with reads := g.listIndex :: a.reads }

def commandGenerator (table : Nat → Option Text) (rounds : Nat) (text : Text) (state : Int)
    (g : Generator) : Option Answer :=
  search table text rounds (if state = 0 then ⟨0, int32 text.length⟩ else g)

/-- The answers of several calls up to the null pointer. -/
structure Answers where
  names : List Text
  reads : List Nat
  last : Generator
  deriving DecidableEq, Repr

/-- Calls with the states that follow `state`, until one returns a null
pointer, for less than so many calls. -/
def enumerate (table : Nat → Option Text) (rounds : Nat) (text : Text) :
    Nat → Int → Generator → Option Answers
  | 0, _, _ => none
  | calls + 1, state, g =>
    (commandGenerator table rounds text state g).bind fun a =>
      match a.name with
      | none => some ⟨[], a.reads, a.next⟩
      | some name => (enumerate table rounds text calls (state + 1) a.next).map fun as =>
          { as with names := name :: as.names, reads := a.reads ++ as.reads }

/-- From any values of the static variables, finitely many calls return the
entries that begin with the text, and read nothing but the array. -/
def Completes (beyond : Nat → Option Text) (text : Text) (g : Generator) : Prop :=
  ∃ rounds calls as, enumerate (commandAt beyond) rounds text calls 0 g = some as ∧
    (∀ i ∈ as.reads, i < gCommands.length) ∧ as.names = gCommands.filter (text.isPrefixOf ·)

section Table

variable {table : Nat → Option Text} {text : Text}

/-! ## The end of an enumeration -/

theorem search_null {rounds : Nat} {g : Generator} {a : Answer}
    (h : search table text rounds g = some a)
    (null : a.name = none) : ∃ i ∈ a.reads, table i = none := by
  induction rounds generalizing g a with
  | zero => cases h
  | succ rounds ih =>
    rw [search] at h
    cases entry : table g.listIndex with
    | none =>
      obtain rfl : _ = a := by simpa [entry] using h
      exact ⟨g.listIndex, by simp, entry⟩
    | some name =>
      simp only [entry] at h
      split at h
      · obtain rfl := Option.some.inj h
        cases null
      · obtain ⟨later, found, rfl⟩ := Option.map_eq_some_iff.mp h
        obtain ⟨i, read, last⟩ := ih found null
        exact ⟨i, List.mem_cons_of_mem _ read, last⟩

/-- Some read of a finished enumeration finds a null pointer. -/
theorem enumerate_null {rounds calls : Nat} {state : Int} {g : Generator} {as : Answers}
    (h : enumerate table rounds text calls state g = some as) : ∃ i ∈ as.reads, table i = none := by
  induction calls generalizing state g as with
  | zero => cases h
  | succ calls ih =>
    obtain ⟨a, called, rest⟩ := Option.bind_eq_some_iff.mp h
    cases answer : a.name with
    | none =>
      obtain rfl : _ = as := by simpa [answer] using rest
      exact search_null called answer
    | some name =>
      simp only [answer] at rest
      obtain ⟨later, found, rfl⟩ := Option.map_eq_some_iff.mp rest
      obtain ⟨i, read, last⟩ := ih found
      exact ⟨i, List.mem_append_right _ read, last⟩

/-! ## A table that ends -/

/-- From `i` on the table holds these entries and then a null pointer. -/
def EndsWith (table : Nat → Option Text) (i : Nat) (rest : List Text) : Prop :=
  ∀ k ≤ rest.length, table (i + k) = rest[k]?

theorem EndsWith.drop {i : Nat} {front rest : List Text} (h : EndsWith table i (front ++ rest)) :
    EndsWith table (i + front.length) rest := by
  intro k hk
  have := h (front.length + k) (by simp only [List.length_append]; omega)
  rw [Nat.add_assoc, this, List.getElem?_append_right (by omega), Nat.add_sub_cancel_left]

/-- A call searches the entries that are left, up to the first that is answered. -/
theorem search_rest {rest : List Text} {rounds : Nat} {g : Generator}
    (ends : EndsWith table g.listIndex rest) (enough : rest.length < rounds) :
    ((∀ name ∈ rest, sameStart g.len name text = false) ∧ search table text rounds g =
        some ⟨none, List.range' g.listIndex (rest.length + 1),
          { g with listIndex := g.listIndex + rest.length }⟩) ∨
    ∃ front name tail, rest = front ++ name :: tail ∧
      (∀ name ∈ front, sameStart g.len name text = false) ∧ sameStart g.len name text = true ∧
      search table text rounds g = some ⟨some name, List.range' g.listIndex (front.length + 1),
        { g with listIndex := g.listIndex + (front.length + 1) }⟩ := by
  induction rest generalizing rounds g with
  | nil =>
    obtain ⟨rounds, rfl⟩ := Nat.exists_eq_succ_of_ne_zero (Nat.ne_of_gt enough)
    have null : table g.listIndex = none := ends 0 (Nat.zero_le _)
    exact .inl ⟨by simp, by simp [search, null]⟩
  | cons name rest ih =>
    obtain ⟨rounds, rfl⟩ := Nat.exists_eq_succ_of_ne_zero (Nat.ne_of_gt (Nat.zero_lt_of_lt enough))
    have entry : table g.listIndex = some name := ends 0 (Nat.zero_le _)
    rw [search, entry]
    cases accepted : sameStart g.len name text with
    | true =>
      refine .inr ⟨[], name, rest, rfl, by simp, accepted, ?_⟩
      simp [accepted]
    | false =>
      have whole : EndsWith table g.listIndex ([name] ++ rest) := ends
      have tail : EndsWith table (g.listIndex + 1) rest := whole.drop
      have fuel : rest.length < rounds := by simpa using enough
      rcases @ih rounds { g with listIndex := g.listIndex + 1 } tail
        fuel with ⟨none_left, found⟩ | found
      · refine .inl ⟨by simpa [accepted] using none_left, ?_⟩
        simp only [accepted, found, Option.map_some, List.length_cons, List.range'_succ,
          Bool.false_eq_true, ↓reduceIte, Nat.add_assoc, Nat.add_comm 1]
      · obtain ⟨front, first, last, rfl, skipped, matched, found⟩ := found
        refine .inr ⟨name :: front, first, last, rfl, by simpa [accepted] using skipped, matched, ?_⟩
        simp only [accepted, found, Option.map_some, List.length_cons, List.range'_succ,
          Bool.false_eq_true, ↓reduceIte, Nat.add_assoc, Nat.add_comm 1]

/-- The calls of an enumeration, of which the first may be its start. -/
theorem enumerate_rest {rest : List Text} {rounds calls : Nat} {state : Int} {g start : Generator}
    (low : 0 ≤ state) (begins : (if state = 0 then ⟨0, int32 text.length⟩ else g) = start)
    (ends : EndsWith table start.listIndex rest) (rounded : rest.length < rounds)
    (called : rest.length < calls) : enumerate table rounds text calls state g =
      some ⟨rest.filter fun name => sameStart start.len name text,
        List.range' start.listIndex (rest.length + 1),
        { start with listIndex := start.listIndex + rest.length }⟩ := by
  induction hn : rest.length using Nat.strong_induction_on generalizing rest calls state g start with
  | _ n ih =>
    obtain ⟨calls, rfl⟩ := Nat.exists_eq_succ_of_ne_zero (Nat.ne_of_gt (Nat.zero_lt_of_lt called))
    rw [enumerate, commandGenerator, begins]
    rcases @search_rest _ text _ _ _ ends rounded with ⟨none_left, found⟩ | found
    · have empty : (rest.filter fun name => sameStart start.len name text) = [] := by
        simpa [List.filter_eq_nil_iff] using none_left
      simp [found, empty, hn]
    · obtain ⟨front, name, tail, rfl, skipped, matched, found⟩ := found
      have empty : (front.filter fun name => sameStart start.len name text) = [] := by
        simpa [List.filter_eq_nil_iff] using skipped
      simp only [List.length_append, List.length_cons] at hn rounded called
      have following : EndsWith table (start.listIndex + (front.length + 1)) tail := by
        have split : front ++ name :: tail = (front ++ [name]) ++ tail := by simp
        rw [split] at ends
        simpa using ends.drop
      have continues : ¬ state + 1 = 0 := by omega
      have rest := @ih tail.length (by omega) tail calls (state + 1)
        { start with listIndex := start.listIndex + (front.length + 1) } _ (by omega)
          (if_neg continues)
        following (by omega) (by omega) rfl
      have reads : n + 1 = front.length + 1 + (tail.length + 1) := by omega
      have last : start.listIndex + n = start.listIndex + (front.length + 1) + tail.length := by omega
      simp only [found, Option.bind_some, rest, Option.map_some, List.filter_append, empty,
        List.nil_append, List.filter_cons, matched, ↓reduceIte, reads, ← List.range'_append_1, last]

end Table

/-! ## The table of the program -/

theorem sameStart_length {text : Text} (short : (text.length : Int) ≤ intMax) (name : Text) :
    sameStart (int32 text.length) name text = text.isPrefixOf name := by
  have len : (int32 text.length % 2 ^ 64).toNat = text.length := by
    rw [int32_of_range (by omega) short]
    simp only [intMax] at short
    omega
  rw [Bool.eq_iff_iff, List.isPrefixOf_iff_prefix, List.prefix_iff_eq_take]
  simp only [sameStart, len, List.take_length, decide_eq_true_eq]
  exact eq_comm

/-- With a null pointer after the array, an enumeration returns the entries
that begin with the text, whatever was enumerated before. -/
theorem completion_terminated {beyond : Nat → Option Text} (null : beyond gCommands.length = none)
    {text : Text} (short : (text.length : Int) ≤ intMax) (g : Generator) {rounds calls : Nat}
    (rounded : gCommands.length < rounds) (called : gCommands.length < calls) :
    ∃ last, enumerate (commandAt beyond) rounds text calls 0 g =
      some ⟨gCommands.filter (text.isPrefixOf ·), List.range (gCommands.length + 1), last⟩ := by
  have ends : EndsWith (commandAt beyond) 0 gCommands := by
    intro k hk
    rw [Nat.zero_add, commandAt]
    split
    · rename_i inside
      exact (List.getElem?_eq_getElem inside).symm
    · obtain rfl : k = gCommands.length := by omega
      rw [null, List.getElem?_length]
  have answers := @enumerate_rest _ text _ _ _ _ g _ (Int.le_refl 0) (if_pos rfl) ends rounded called
  simp only [sameStart_length short, ← List.range_eq_range'] at answers
  exact ⟨_, answers⟩

/-- The null pointer that ends an enumeration is not in the array. -/
theorem finished_outside {beyond : Nat → Option Text} {text : Text}
    {rounds calls : Nat} {g : Generator}
    {as : Answers} (run : enumerate (commandAt beyond) rounds text calls 0 g = some as) :
    ∃ i ∈ as.reads, gCommands.length ≤ i := by
  obtain ⟨i, read, null⟩ := enumerate_null run
  refine ⟨i, read, ?_⟩
  by_contra before
  have inside : i < gCommands.length := Nat.not_le.mp before
  have entry : commandAt beyond i = some gCommands[i] := dif_pos inside
  cases null.symm.trans entry

/-- No enumeration stays inside the array. -/
theorem completion_overruns (beyond : Nat → Option Text) (text : Text) (g : Generator) :
    ¬ Completes beyond text g := by
  rintro ⟨rounds, calls, as, run, inside, -⟩
  obtain ⟨i, read, outside⟩ := finished_outside run
  exact absurd (inside i read) (Nat.not_lt.mpr outside)

/-- The first completion, of `sh`, reads the entry after the last. -/
theorem firstCompletion_overruns : ¬ ∀ beyond text g, Completes beyond text g := by
  intro completes
  obtain ⟨rounds, calls, as, run, inside, -⟩ := completes (fun _ => none) "sh".toList ⟨0, 0⟩
  obtain ⟨i, read, outside⟩ := finished_outside run
  exact absurd (inside i read) (Nat.not_lt.mpr outside)

end Completion

end AutoTest
