import AutoTest.Network

/-! The script tables: names, line buffers, run counts and thread handles of
the ten script slots. A slot number is used as an index without a range test,
except when a handle is stored. -/

namespace AutoTest

open CString

def maxFileName : Nat := 60
def maxScLine : Nat := 500

/-- A thread handle; zero, which is also `ERROR`, stands for no thread. -/
abbrev Tid := Nat

abbrev Slot := Fin 10

/-- The tables have as many entries as the client registry. -/
def slotIndex (scriptNum : Int) : Except Fault Slot :=
  match clientIndex scriptNum with
  | some slot => .ok slot
  | none => .error .bounds

@[simp] theorem slotIndex_cast (slot : Slot) : slotIndex slot = .ok slot := by
  simp [slotIndex]

theorem slotIndex_ok {scriptNum : Int} {slot : Slot} (h : slotIndex scriptNum = .ok slot) :
    scriptNum = slot := by
  unfold slotIndex at h
  cases hindex : clientIndex scriptNum with
  | none => simp [hindex] at h
  | some n =>
    obtain rfl : n = slot := by simpa [hindex] using h
    exact clientIndex_some hindex

structure Scripts where
  gScriptName : Slot → Text
  /-- the lines copied into an allocated buffer, the others being empty -/
  gScriptParam : Slot → Option (List Text)
  gScriptCount : Slot → Int
  thrScriptId : Slot → Tid

namespace Scripts

def empty : Scripts := ⟨fun _ => [], fun _ => none, fun _ => 0, fun _ => 0⟩

def gScriptParamInit (s : Scripts) : Scripts := { s with gScriptName := fun _ => [] }

def getScriptName (scriptNum : Int) (s : Scripts) : Except Fault Text := do
  return s.gScriptName (← slotIndex scriptNum)

def setScriptName (scriptNum : Int) (name : Text) (s : Scripts) : Except Fault Scripts := do
  return { s with gScriptName := Function.update s.gScriptName (← slotIndex scriptNum) name }

def getCountOfScriptRun (scriptNum : Int) (s : Scripts) : Except Fault Int := do
  return s.gScriptCount (← slotIndex scriptNum)

/-- A negative value is not stored. -/
def setCountOfScriptRun (scriptNum value : Int) (s : Scripts) : Except Fault Scripts :=
  if value < 0 then .ok s
  else do
    return { s with gScriptCount := Function.update s.gScriptCount (← slotIndex scriptNum) value }

def getScriptThreadID (scriptNum : Int) (s : Scripts) : Except Fault Tid := do
  return s.thrScriptId (← slotIndex scriptNum)

/-- The range test admits slot ten, which the table does not have. -/
def setScriptThreadID (scriptNum : Int) (id : Tid) (s : Scripts) : Except Fault Scripts :=
  if scriptNum < minClient ∨ scriptNum > maxClient then .ok s
  else do
    return { s with thrScriptId := Function.update s.thrScriptId (← slotIndex scriptNum) id }

/-- The zeroed buffer that `malloc` and `memset` leave. -/
def mallocScript (scriptNum : Int) (s : Scripts) : Except Fault Scripts := do
  return { s with gScriptParam := Function.update s.gScriptParam (← slotIndex scriptNum) (some []) }

def copyScript (scriptNum : Int) (lines : List Text) (s : Scripts) : Except Fault Scripts := do
  let slot ← slotIndex scriptNum
  if s.gScriptParam slot = none then throw .invalid
  if lines.length > maxScLine then throw .bounds
  return { s with gScriptParam := Function.update s.gScriptParam slot (some lines) }

def scriptCmd (scriptNum : Int) (index : Nat) (s : Scripts) : Except Fault Text := do
  match s.gScriptParam (← slotIndex scriptNum) with
  | none => throw .invalid
  | some lines => if index < maxScLine then return lines.getD index [] else throw .bounds

def freeScript (scriptNum : Int) (s : Scripts) : Except Fault Scripts := do
  return { s with gScriptParam := Function.update s.gScriptParam (← slotIndex scriptNum) none }

section InRange

variable (slot : Slot) (s : Scripts)

@[simp] theorem getScriptName_slot : s.getScriptName slot = .ok (s.gScriptName slot) := by
  simp [getScriptName, bind, Except.bind, pure, Except.pure]

@[simp] theorem setScriptName_slot (name : Text) : s.setScriptName slot name =
    .ok { s with gScriptName := Function.update s.gScriptName slot name } := by
  simp [setScriptName, bind, Except.bind, pure, Except.pure]

@[simp] theorem getCountOfScriptRun_slot :
    s.getCountOfScriptRun slot = .ok (s.gScriptCount slot) := by
  simp [getCountOfScriptRun, bind, Except.bind, pure, Except.pure]

@[simp] theorem setCountOfScriptRun_slot (value : Int) : s.setCountOfScriptRun slot value =
    .ok (if value < 0 then s
      else { s with gScriptCount := Function.update s.gScriptCount slot value }) := by
  unfold setCountOfScriptRun
  split <;> simp [bind, Except.bind, pure, Except.pure]

@[simp] theorem setScriptThreadID_slot (id : Tid) : s.setScriptThreadID slot id =
    .ok { s with thrScriptId := Function.update s.thrScriptId slot id } := by
  have range : ¬ ((slot : Int) < minClient ∨ (slot : Int) > maxClient) := by
    simp only [minClient, maxClient]
    omega
  simp [setScriptThreadID, range, bind, Except.bind, pure, Except.pure]

@[simp] theorem mallocScript_slot : s.mallocScript slot =
    .ok { s with gScriptParam := Function.update s.gScriptParam slot (some []) } := by
  simp [mallocScript, bind, Except.bind, pure, Except.pure]

@[simp] theorem freeScript_slot : s.freeScript slot =
    .ok { s with gScriptParam := Function.update s.gScriptParam slot none } := by
  simp [freeScript, bind, Except.bind, pure, Except.pure]

variable {slot s}

theorem copyScript_slot {lines : List Text} (buffer : s.gScriptParam slot ≠ none)
    (fits : lines.length ≤ maxScLine) : s.copyScript slot lines =
      .ok { s with gScriptParam := Function.update s.gScriptParam slot (some lines) } := by
  simp [copyScript, buffer, Nat.not_lt.mpr fits, bind, Except.bind, pure, Except.pure]

theorem copyScript_many {lines : List Text} (buffer : s.gScriptParam slot ≠ none)
    (many : maxScLine < lines.length) : s.copyScript slot lines = .error .bounds := by
  simp [copyScript, buffer, many, bind, Except.bind, throw, throwThe, MonadExceptOf.throw]

theorem scriptCmd_slot {lines : List Text} (buffer : s.gScriptParam slot = some lines)
    {index : Nat} (room : index < maxScLine) :
    s.scriptCmd slot index = .ok (lines.getD index []) := by
  simp [scriptCmd, buffer, room, bind, Except.bind, pure, Except.pure]

/-- The count after `more` further rounds, which stops at the largest `int`. -/
def counted (slot : Slot) (more : Nat) (s : Scripts) : Scripts :=
  let count := min (s.gScriptCount slot + more) intMax
  { s with gScriptCount := Function.update s.gScriptCount slot count }

theorem setCountOfScriptRun_next (low : 0 ≤ s.gScriptCount slot)
    (high : s.gScriptCount slot ≤ intMax) :
    s.setCountOfScriptRun slot (int32 (s.gScriptCount slot + 1)) = .ok (s.counted slot 1) := by
  have next := int32_next low high
  rw [setCountOfScriptRun_slot, counted, Int.natCast_one, ← next]
  split <;> simp

theorem counted_zero (high : s.gScriptCount slot ≤ intMax) : s.counted slot 0 = s := by
  have hmin : min (s.gScriptCount slot) intMax = s.gScriptCount slot := Int.min_eq_left high
  simp [counted, hmin]

theorem counted_counted (m n : Nat) :
    (s.counted slot m).counted slot n = s.counted slot (m + n) := by
  have hmin : min (min (s.gScriptCount slot + m) intMax + n) intMax =
      min (s.gScriptCount slot + ((m + n : Nat) : Int)) intMax := by
    omega
  simp [counted, hmin]

end InRange

/-! ### What keeps the handles and the names -/

section Handles

variable {scriptNum : Int} {s s' : Scripts}

theorem slotwise_ok {α : Type} {f : Slot → α} {a : α}
    (h : (do return f (← slotIndex scriptNum) : Except Fault α) = .ok a) :
    ∃ slot : Slot, scriptNum = slot ∧ a = f slot := by
  cases hslot : slotIndex scriptNum with
  | error e => simp [hslot, bind, Except.bind] at h
  | ok slot =>
    refine ⟨slot, slotIndex_ok hslot, ?_⟩
    simpa [hslot, bind, Except.bind, pure, Except.pure] using h.symm

theorem setScriptName_handles {name : Text} (h : s.setScriptName scriptNum name = .ok s') :
    s'.thrScriptId = s.thrScriptId := by
  obtain ⟨slot, -, rfl⟩ := slotwise_ok h
  rfl

/-- Neither a handle nor a name is changed. -/
def Keeps (s s' : Scripts) : Prop := s'.thrScriptId = s.thrScriptId ∧ s'.gScriptName = s.gScriptName

theorem setCountOfScriptRun_keeps {value : Int} (h : s.setCountOfScriptRun scriptNum value = .ok s') :
    s.Keeps s' := by
  unfold setCountOfScriptRun at h
  split at h
  · obtain rfl : s = s' := by simpa using h
    exact ⟨rfl, rfl⟩
  · obtain ⟨slot, -, rfl⟩ := slotwise_ok h
    exact ⟨rfl, rfl⟩

/-- A slot gets the handle, or the number is none of a slot and nothing happens. -/
theorem setScriptThreadID_cases {id : Tid} (h : s.setScriptThreadID scriptNum id = .ok s') :
    (∃ slot : Slot, scriptNum = slot ∧
      s' = { s with thrScriptId := Function.update s.thrScriptId slot id }) ∨
        (∀ slot : Slot, scriptNum ≠ slot) ∧ s' = s := by
  unfold setScriptThreadID at h
  split at h
  · rename_i outside
    cases h
    refine .inr ⟨?_, rfl⟩
    intro slot
    simp only [minClient, maxClient] at outside
    omega
  · obtain ⟨slot, number, rfl⟩ := slotwise_ok h
    exact .inl ⟨slot, number, rfl⟩

/-- The handles of the other slots are kept. -/
theorem setScriptThreadID_other {id : Tid}
    (h : s.setScriptThreadID scriptNum id = .ok s') {slot : Slot}
    (other : scriptNum ≠ slot) : s'.thrScriptId slot = s.thrScriptId slot := by
  rcases setScriptThreadID_cases h with ⟨own, rfl, rfl⟩ | ⟨-, rfl⟩
  · refine Function.update_of_ne ?_ _ _
    rintro rfl
    exact other rfl
  · rfl

theorem setScriptThreadID_names {id : Tid} (h : s.setScriptThreadID scriptNum id = .ok s') :
    s'.gScriptName = s.gScriptName := by
  rcases setScriptThreadID_cases h with ⟨slot, -, rfl⟩ | ⟨-, rfl⟩ <;> rfl

theorem mallocScript_keeps (h : s.mallocScript scriptNum = .ok s') : s.Keeps s' := by
  obtain ⟨slot, -, rfl⟩ := slotwise_ok h
  exact ⟨rfl, rfl⟩

theorem freeScript_keeps (h : s.freeScript scriptNum = .ok s') : s.Keeps s' := by
  obtain ⟨slot, -, rfl⟩ := slotwise_ok h
  exact ⟨rfl, rfl⟩

theorem copyScript_keeps {lines : List Text} (h : s.copyScript scriptNum lines = .ok s') :
    s.Keeps s' := by
  unfold copyScript at h
  cases hslot : slotIndex scriptNum with
  | error e => simp [hslot, bind, Except.bind] at h
  | ok slot =>
    simp only [hslot, bind, Except.bind, pure, Except.pure, throw, throwThe, MonadExceptOf.throw] at h
    split at h
    · cases h
    · split at h
      · cases h
      · obtain rfl := Except.ok.inj h
        exact ⟨rfl, rfl⟩

end Handles

end Scripts

end AutoTest
