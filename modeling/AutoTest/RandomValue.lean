import AutoTest.Handlers

/-!
# Random values

`getRandValue` adds its least value to a share of its greatest. The share is
taken here in exact arithmetic.

* `scaled_cover`: the shares of `max` are the numbers below it.
* `rand_ranged_iff`: the values stay in the range, and the sleeps of
  `randomTime` below its greatest number, exactly when the least value is 0 or 1.
-/

namespace AutoTest

open CString Program Cmd

/-- `RAND_MAX`, which the C library sets to the largest `int`. -/
def randMax : Nat := 2 ^ 31 - 1

/-- `max * rand() / (RAND_MAX + 1.0)` without its fraction. -/
def exactScale (max r : Nat) : Nat := max * r / 2 ^ 31

/-- `getRandValue`, given how the share is computed. -/
def getRandValueBy (scale : Nat → Nat → Nat) (minRand maxRand : Int) (r : Nat) : Int :=
  if maxRand ≤ 0 ∨ minRand < 0 ∨ maxRand < minRand then failed
  else int32 (minRand + scale maxRand.toNat r)

theorem getRandValue_by : getRandValue = getRandValueBy scaleRand := rfl

/-- `randomTime`, given how its value is drawn. -/
def randomTimeBy (value : Int → Int → Nat → Int) (cmdNum : Nat) : Cmd Unit := do
  let gParamNum ← paramNum
  if gParamNum ≠ 2 then wrongParameter cmdNum
  else
    let minTime := atoi (← param 1)
    let maxTime := atoi (← param 2)
    if minTime ≥ maxTime then wrongParameter cmdNum
    else if maxTime ≤ 0 ∨ minTime < 0 then pure ()
    else
      match ← rand with
      | [] => fault .diverge
      | r :: _ =>
        let delayTime := value minTime maxTime r
        if delayTime > 0 then sleep delayTime else pure ()

theorem randomTime_by : randomTime = randomTimeBy getRandValue := rfl

/-- The arguments of the calls of `sleep`, for the tokens and draws given. -/
def napping (argv : List Text) (draws : List Nat) : Interp cmdSig Fault (List Int)
  | .paramNum, naps => .ok (argv.length - 1, naps)
  | .param i, naps =>
    match argv[i]? with
    | some t => .ok (t, naps)
    | none => .error .unset
  | .rand, naps => .ok (draws, naps)
  | .sleep seconds, naps => .ok ((), naps ++ [seconds])
  | .print _, naps => .ok ((), naps)
  | .fault f, _ => .error f
  | _, _ => .error .invalid

/-! ## Shares -/

theorem exactScale_lt {max : Nat} (positive : 0 < max) {r : Nat} (draw : r ≤ randMax) :
    exactScale max r < max := by
  have below : r < 2 ^ 31 := by
    simp only [randMax] at draw
    omega
  unfold exactScale
  rw [Nat.div_lt_iff_lt_mul (by omega)]
  exact Nat.mul_lt_mul_of_pos_left below positive

/-- Every number below `max` is a share, as there are at least as many draws. -/
theorem scaled_cover {max share : Nat} (few : max ≤ randMax + 1) (below : share < max) :
    ∃ r ≤ randMax, exactScale max r = share := by
  have positive : 0 < max := by omega
  simp only [randMax, exactScale] at few ⊢
  -- the least draw whose share is not smaller
  generalize hr : (share * 2 ^ 31 + (max - 1)) / max = r
  have lower : share * 2 ^ 31 ≤ max * r := by
    have floor := Nat.lt_mul_div_succ (share * 2 ^ 31 + (max - 1)) positive
    rw [hr, Nat.mul_succ] at floor
    omega
  have upper : max * r < (share + 1) * 2 ^ 31 := by
    have floor := Nat.mul_div_le (share * 2 ^ 31 + (max - 1)) max
    rw [hr] at floor
    omega
  have whole : max * r / 2 ^ 31 = share := by
    rw [Nat.div_eq_iff (by omega)]
    omega
  refine ⟨r, ?_, whole⟩
  have inside : r < 2 ^ 31 :=
    Nat.lt_of_mul_lt_mul_left (upper.trans_le (Nat.mul_le_mul_right _ below))
  exact Nat.le_pred_of_lt inside

/-! ## Ranges -/

variable (minRand maxRand : Int)

/-- What is asked of one draw: a value in the range by an addition without
overflow, or `FAILED`. -/
def Ranged (r : Nat) : Prop :=
  if 0 ≤ minRand ∧ minRand ≤ maxRand ∧ 0 < maxRand then
    minRand + exactScale maxRand.toNat r ≤ intMax ∧
      minRand ≤ getRandValueBy exactScale minRand maxRand r ∧
      getRandValueBy exactScale minRand maxRand r ≤ maxRand
  else getRandValueBy exactScale minRand maxRand r = failed

/-- `randomTime` with these numbers never sleeps longer than the greater one. -/
def NapsWithin (r : Nat) : Prop := ∀ cmdNum name least most, atoi least = minRand →
    atoi most = maxRand →
  0 ≤ minRand → minRand < maxRand → ∃ naps,
    (randomTimeBy (getRandValueBy exactScale) cmdNum).run (napping [name, least, most] [r]) [] =
      .ok ((), naps) ∧ ∀ seconds ∈ naps, seconds ≤ maxRand

variable {minRand maxRand}

theorem getRandValueBy_failed {scale : Nat → Nat → Nat} {r : Nat}
    (outside : ¬ (0 ≤ minRand ∧ minRand ≤ maxRand ∧ 0 < maxRand)) :
    getRandValueBy scale minRand maxRand r = failed := by
  apply if_pos
  omega

theorem getRandValueBy_valid {scale : Nat → Nat → Nat} {r : Nat}
    (valid : 0 ≤ minRand ∧ minRand ≤ maxRand ∧ 0 < maxRand)
    (room : minRand + scale maxRand.toNat r ≤ intMax) :
    getRandValueBy scale minRand maxRand r = minRand + scale maxRand.toNat r := by
  unfold getRandValueBy
  rw [if_neg (by omega)]
  exact int32_of_range (by omega) room

/-- With a least value of 0 or 1 the sum stays in the range. -/
theorem ranged_of_least (small : maxRand ≤ intMax)
    (least : 0 ≤ minRand ∧ minRand ≤ maxRand ∧ 0 < maxRand → minRand ≤ 1) {r : Nat}
    (draw : r ≤ randMax) : Ranged minRand maxRand r := by
  unfold Ranged
  split
  · rename_i valid
    have share : exactScale maxRand.toNat r < maxRand.toNat := exactScale_lt (by omega) draw
    have first := least valid
    have room : minRand + exactScale maxRand.toNat r ≤ intMax := by omega
    rw [getRandValueBy_valid valid room]
    omega
  · rename_i outside
    exact getRandValueBy_failed outside

/-- The greatest draw of a larger least value leaves the range. -/
theorem least_of_ranged (small : maxRand ≤ intMax) (ranged : ∀ r ≤ randMax, Ranged minRand maxRand r)
    (valid : 0 ≤ minRand ∧ minRand ≤ maxRand ∧ 0 < maxRand) : minRand ≤ 1 := by
  have few : maxRand.toNat ≤ randMax + 1 := by
    simp only [randMax, intMax] at *
    omega
  obtain ⟨r, draw, share⟩ := @scaled_cover maxRand.toNat (maxRand.toNat - 1) few (by omega)
  have meets := ranged r draw
  unfold Ranged at meets
  rw [if_pos valid] at meets
  obtain ⟨room, -, most⟩ := meets
  rw [getRandValueBy_valid valid room, share] at most
  omega

theorem naps_of_ranged {r : Nat} (ranged : Ranged minRand maxRand r) :
    NapsWithin minRand maxRand r := by
  intro cmdNum name least most hleast hmost low below
  unfold Ranged at ranged
  rw [if_pos (by omega)] at ranged
  have order : ¬ maxRand ≤ minRand := by omega
  have drawn : ¬ (maxRand ≤ 0 ∨ minRand < 0) := by omega
  obtain ⟨-, -, most⟩ := ranged
  by_cases sleeps : 0 < getRandValueBy exactScale minRand maxRand r
  · refine ⟨[getRandValueBy exactScale minRand maxRand r], ?_, ?_⟩
    · simp [randomTimeBy, Cmd.paramNum, Cmd.param, Cmd.rand, Cmd.sleep, Prog.run, napping, hleast,
        hmost, order, drawn, sleeps]
    · intro seconds listed
      obtain rfl := List.mem_singleton.mp listed
      exact most
  · refine ⟨[], ?_, by simp⟩
    simp [randomTimeBy, Cmd.paramNum, Cmd.param, Cmd.rand, Cmd.sleep, Prog.run, napping, hleast,
      hmost, order, drawn, sleeps]

/-- The range is kept for every draw exactly when the least value is 0 or 1. -/
theorem rand_ranged_iff (minRand maxRand : Int32) :
    (∀ r ≤ randMax, Ranged minRand.toInt maxRand.toInt r ∧ NapsWithin minRand.toInt maxRand.toInt r) ↔
      (0 ≤ minRand.toInt ∧ minRand.toInt ≤ maxRand.toInt ∧ 0 < maxRand.toInt →
        minRand.toInt ≤ 1) := by
  have small : maxRand.toInt ≤ intMax := by
    have greatest : Int32.maxValue.toInt = intMax := by decide
    exact greatest ▸ maxRand.toInt_le
  constructor
  · intro ranged
    exact least_of_ranged small fun r draw => (ranged r draw).1
  · intro least r draw
    have ranged := ranged_of_least small least draw
    exact ⟨ranged, naps_of_ranged ranged⟩

/-- `randomTime 5 10` can sleep for fourteen seconds. -/
theorem fiveToTen_leaves : ¬ ∀ (minRand maxRand : Int32), ∀ r ≤ randMax,
    Ranged minRand.toInt maxRand.toInt r ∧ NapsWithin minRand.toInt maxRand.toInt r := by
  intro ranged
  have five := (ranged 5 10 randMax (Nat.le_refl _)).1
  have value : getRandValueBy exactScale (5 : Int32).toInt (10 : Int32).toInt randMax = 14 := by
    decide
  unfold Ranged at five
  rw [if_pos (by decide), value] at five
  exact absurd five.2.2 (by decide)

end AutoTest
