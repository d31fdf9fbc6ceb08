import AutoTest.Syslog

/-!
# The scan for a client number

The loop of `getLogClientNum` character by character, in a memory that goes on
after the terminator of the text.

* `Scan.loop`: the loop, for a number of rounds.
* `scan_safe_iff`: the scan stays in the text and in `tmpBuff` exactly when a
  space follows early enough after the first `client`.
-/

namespace AutoTest

open CString Strtok Program

/-- A text in memory, its terminator, and what lies after it. -/
def stored (log : Text) (beyond : Nat → Cell) (i : Nat) : Cell :=
  if h : i < log.length then some log[i] else if i = log.length then none else beyond i

theorem stored_space (log : Text) (beyond : Nat → Cell) (i : Nat) :
    stored log beyond i = some ' ' ∧ i ≤ log.length ↔ log[i]? = some ' ' := by
  unfold stored
  by_cases inside : i < log.length
  · simp [inside, Nat.le_of_lt inside]
  · by_cases last : i = log.length
    · simp [last]
    · have outside : ¬ i ≤ log.length := by omega
      simp [inside, outside]

/-- The pointer `p` as an offset, and the characters copied to `tmpBuff`. -/
structure Scan where
  p : Nat
  tmpBuff : List Cell
  deriving DecidableEq, Repr

namespace Scan

/-- The scan starts one character after the first `client`. -/
def start (log : Text) : Option Scan :=
  (strstr strClient log).map fun p => ⟨log.length - p.length + (strClient.length + 1), []⟩

/-- `while(*p != ' ')`, for less than so many rounds. -/
def loop (memory : Nat → Cell) : Nat → Scan → Option Scan
  | 0, _ => none
  | rounds + 1, s =>
    if memory s.p = some ' ' then some s
    else loop memory rounds ⟨s.p + 1, s.tmpBuff ++ [memory s.p]⟩

variable {memory : Nat → Cell}

/-- The places that are read are those from the first to the last, and all
but the last are copied. -/
theorem loop_reads {rounds : Nat} {s t : Scan} (h : loop memory rounds s = some t) :
    s.p ≤ t.p ∧ memory t.p = some ' ' ∧
      t.tmpBuff = s.tmpBuff ++ (List.range' s.p (t.p - s.p)).map memory := by
  induction rounds generalizing s with
  | zero => cases h
  | succ rounds ih =>
    rw [loop] at h
    split at h
    · rename_i space
      obtain rfl := Option.some.inj h
      exact ⟨Nat.le_refl _, space, by simp⟩
    · obtain ⟨onwards, space, copied⟩ := ih h
      have width : t.p - s.p = t.p - (s.p + 1) + 1 := by
        simp only at onwards
        omega
      refine ⟨by simp only at onwards; omega, space, ?_⟩
      rw [copied, width, List.range'_succ, List.map_cons, List.append_assoc, List.singleton_append]

/-- A space ahead ends the loop. -/
theorem loop_ends {ahead : Nat} {s : Scan} (space : memory (s.p + ahead) = some ' ') :
    ∃ t, loop memory (ahead + 1) s = some t ∧ t.p ≤ s.p + ahead := by
  induction ahead generalizing s with
  | zero => exact ⟨s, if_pos space, Nat.le_refl _⟩
  | succ ahead ih =>
    rw [loop]
    by_cases here : memory s.p = some ' '
    · exact ⟨s, if_pos here, by omega⟩
    · rw [if_neg here]
      obtain ⟨t, hloop, near⟩ := @ih ⟨s.p + 1, s.tmpBuff ++ [memory s.p]⟩ (by
        rw [← space]
        congr 1
        simp only
        omega)
      exact ⟨t, hloop, by simp only at near; omega⟩

/-- The loop ends, reads nothing after the terminator, and copies at most two
characters. -/
def Safe (log : Text) (beyond : Nat → Cell) : Prop := ∀ s, start log = some s →
  ∃ rounds t, loop (stored log beyond) rounds s = some t ∧ t.p ≤ log.length ∧ t.tmpBuff.length ≤ 2

/-- What lies at the scan and after it, as long as the text goes on. -/
theorem start_ahead {log p : Text} (found : strstr strClient log = some p) (beyond : Nat → Cell) :
    ∃ s, start log = some s ∧ s.tmpBuff = [] ∧
      ∀ ahead, stored log beyond (s.p + ahead) = some ' ' ∧ s.p + ahead ≤ log.length ↔
        (p.drop (strClient.length + 1))[ahead]? = some ' ' := by
  obtain ⟨before, rfl⟩ := strstr_suffix found
  refine ⟨⟨before.length + (strClient.length + 1), []⟩, by simp [start, found], rfl, ?_⟩
  intro ahead
  generalize strClient.length + 1 = skipped
  have place : (p.drop skipped)[ahead]? = (before ++ p)[before.length + skipped + ahead]? := by
    rw [List.getElem?_drop, List.getElem?_append_right (by omega)]
    congr 1
    omega
  rw [place]
  exact stored_space _ _ _

/-- A space is among the three characters where the scan begins, if it does. -/
def Closed (log : Text) : Prop := ∀ p, strstr strClient log = some p →
  ' ' ∈ (p.drop (strClient.length + 1)).take 3

instance (log : Text) : Decidable (Closed log) :=
  inferInstanceAs (Decidable (∀ p ∈ strstr strClient log,
    ' ' ∈ (p.drop (strClient.length + 1)).take 3))

theorem Safe.closed {log : Text} {beyond : Nat → Cell} (safe : Safe log beyond) : Closed log := by
  intro p found
  obtain ⟨s, hstart, empty, spaces⟩ := start_ahead found beyond
  obtain ⟨rounds, t, hloop, inside, few⟩ := safe s hstart
  obtain ⟨onwards, space, copied⟩ := loop_reads hloop
  have near : t.p - s.p ≤ 2 := by
    rw [copied, empty] at few
    simpa using few
  have there : s.p + (t.p - s.p) = t.p := by omega
  have read := (spaces (t.p - s.p)).mp ⟨by rw [there, space], by omega⟩
  apply List.mem_of_getElem? (i := t.p - s.p)
  rw [List.getElem?_take, if_pos (by omega), read]

theorem Closed.safe {log : Text} (closed : Closed log) (beyond : Nat → Cell) : Safe log beyond := by
  intro s hstart
  cases found : strstr strClient log with
  | none => simp [start, found] at hstart
  | some p =>
    obtain ⟨s', hstart', empty, spaces⟩ := start_ahead found beyond
    obtain rfl := Option.some.inj (hstart.symm.trans hstart')
    obtain ⟨ahead, hahead⟩ := List.mem_iff_getElem?.mp (closed p found)
    rw [List.getElem?_take] at hahead
    split at hahead
    · rename_i early
      obtain ⟨space, inside⟩ := (spaces ahead).mpr hahead
      obtain ⟨t, hloop, near⟩ := loop_ends space
      obtain ⟨onwards, -, copied⟩ := loop_reads hloop
      refine ⟨ahead + 1, t, hloop, by omega, ?_⟩
      rw [copied, empty]
      simp
      omega
    · cases hahead

theorem mem_take_iff {t : Text} {count : Nat} :
    ' ' ∈ t.take (count + 1) ↔ ' ' ∈ t ∧ (t.takeWhile (· ≠ ' ')).length ≤ count := by
  induction t generalizing count with
  | nil => simp
  | cons c t ih =>
    by_cases space : c = ' '
    · simp [space]
    · cases count with
      | zero => simp [space, Ne.symm space]
      | succ count => simp [space, Ne.symm space, ih]

/-- The function yields a number where its scan is safe, and only there. -/
theorem closed_iff_number (log : Text) : Closed log ↔ ∃ n, getLogClientNum log = .ok n := by
  unfold Closed getLogClientNum clientField
  cases found : strstr strClient log with
  | none => simp
  | some p =>
    simp only [Option.some.injEq, forall_eq', mem_take_iff, reduceCtorEq, ↓reduceIte]
    by_cases space : ' ' ∈ p.drop (strClient.length + 1)
    · by_cases few : ((p.drop (strClient.length + 1)).takeWhile (· ≠ ' ')).length ≤ 2
      · simp only [space, few, and_self, ↓reduceIte, Except.ok.injEq, exists_eq']
      · simp only [space, few, and_false, ↓reduceIte, reduceCtorEq, exists_false]
    · simp only [space, false_and, ↓reduceIte, reduceCtorEq, exists_false]

end Scan

/-- The scan of `getLogClientNum` is safe exactly when a space is near enough. -/
theorem scan_safe_iff (log : Text) (beyond : Nat → Cell) : Scan.Safe log beyond ↔
    Scan.Closed log := by
  constructor
  · exact Scan.Safe.closed
  · intro closed
    exact closed.safe beyond

/-- A text that ends with `client` is left by the scan at once. -/
theorem bareClient_unsafe : ¬ ∀ log beyond, Scan.Safe log beyond := by
  intro safe
  have closed := (safe "doubleTalk client".toList fun _ => none).closed "client".toList (by decide)
  exact absurd closed (by decide)

end AutoTest
