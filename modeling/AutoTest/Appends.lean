import Mathlib.Data.List.Basic

/-!
# Records appended under keys

A table has a text under every key. Each record of a sequence adds a text at
the end of one of them, or nothing.

* `foldl_add`: an entry grows by what the records add to it, in their order.
* `foldl_add_congr`: only the order of the records of one origin matters, where
  each key is written from one origin.
-/

namespace Appends

variable {κ ρ α ι : Type} [DecidableEq κ] (entry : ρ → Option (κ × List α))

def add (table : κ → List α) (r : ρ) : κ → List α :=
  match entry r with
  | some (key, text) => Function.update table key (table key ++ text)
  | none => table

/-- What a record adds under a key. -/
def added (key : κ) (r : ρ) : List α :=
  match entry r with
  | some (other, text) => if other = key then text else []
  | none => []

theorem add_apply (table : κ → List α) (r : ρ) (key : κ) :
    add entry table r key = table key ++ added entry key r := by
  unfold add added
  cases entry r with
  | none => simp
  | some written =>
    obtain ⟨other, text⟩ := written
    by_cases same : other = key
    · subst same
      simp
    · simp [same, Function.update_of_ne (Ne.symm same)]

theorem foldl_add (records : List ρ) (table : κ → List α) (key : κ) :
    records.foldl (add entry) table key = table key ++ records.flatMap (added entry key) := by
  induction records generalizing table with
  | nil => simp
  | cons r records ih => rw [List.foldl_cons, ih, add_apply, List.flatMap_cons, List.append_assoc]

variable {entry}

/-- The records that are left out add nothing. -/
theorem flatMap_filter {key : κ} {p : ρ → Bool} {records : List ρ}
    (silent : ∀ r ∈ records, p r = false → added entry key r = []) :
    (records.filter p).flatMap (added entry key) = records.flatMap (added entry key) := by
  induction records with
  | nil => rfl
  | cons r records ih =>
    have rest := ih fun other hother => silent other (by simp [hother])
    cases kept : p r with
    | true => rw [List.filter_cons_of_pos kept, List.flatMap_cons, List.flatMap_cons, rest]
    | false => rw [List.filter_cons_of_neg (by simp [kept]), List.flatMap_cons,
      silent r (by simp) kept, rest,
        List.nil_append]

theorem added_nil {key : κ} {r : ρ} (apart : ∀ text, entry r ≠ some (key, text)) :
    added entry key r = [] := by
  unfold added
  cases h : entry r with
  | none => rfl
  | some written =>
    obtain ⟨other, text⟩ := written
    have differs : other ≠ key := fun same => apart text (same ▸ h)
    simp [differs]

theorem foldl_add_congr [DecidableEq ι] {origin : ρ → ι} {records records' : List ρ}
    (own : ∀ r ∈ records ++ records', ∀ r' ∈ records ++ records', ∀ key text text',
      entry r = some (key, text) → entry r' = some (key, text') → origin r = origin r')
    (same : ∀ i, records.filter (fun r => origin r = i) = records'.filter (fun r => origin r = i))
    (table : κ → List α) : records.foldl (add entry) table = records'.foldl (add entry) table := by
  funext key
  rw [foldl_add, foldl_add]
  by_cases written : ∃ r ∈ records ++ records', ∃ text, entry r = some (key, text)
  · -- the key belongs to the origin of one record that writes it
    obtain ⟨r, hr, text, writes⟩ := written
    have others (r' : ρ) (hr' : r' ∈ records ++ records')
        (other : decide (origin r' = origin r) = false) :
        added entry key r' = [] := by
      apply added_nil
      intro text' writes'
      exact of_decide_eq_false other (own r' hr' r hr key text' text writes' writes)
    rw [← flatMap_filter fun r' hr' => others r' (List.mem_append_left _ hr'), same,
      flatMap_filter fun r' hr' => others r' (List.mem_append_right _ hr')]
  · have nothing (r : ρ) (hr : r ∈ records ++ records') : added entry key r = [] :=
      added_nil fun text writes => written ⟨r, hr, text, writes⟩
    rw [List.flatMap_eq_nil_iff.mpr fun r hr => nothing r (List.mem_append_left _ hr),
      List.flatMap_eq_nil_iff.mpr fun r hr => nothing r (List.mem_append_right _ hr)]

end Appends
