import Mathlib.Algebra.BigOperators.Group.List.Basic
import Mathlib.Algebra.GroupWithZero.Nat
import AutoTest.Script

/-!
# What a script means

A well-formed script is a list of items, each a plain line or a block with a
number of rounds. `expand` is the sequence of lines it stands for; the script
thread passes exactly that sequence to `cmd_proc`.

The commands work on a part of the state the thread itself never looks at:
no handler touches the buffer or the run count of a script slot.
-/

namespace AutoTest

open CString Program Cmd

/-- `loop n`, `start`, the body and `end`. -/
structure Block where
  header : Text
  arg : Text
  startLine : Text
  body : List Text
  endLine : Text
  isLoop : beginsNoCase cmdLoop header
  argument : strstr cSpace header = some (' ' :: arg)
  short : arg.length ≤ 9
  positive : 1 ≤ atoi arg
  isStart : beginsNoCase loopStartWord startLine
  plain : ∀ line ∈ body, ¬ beginsNoCase loopStartWord line ∧ ¬ beginsNoCase loopEndWord line
  isEnd : beginsNoCase loopEndWord endLine

namespace Block

variable (b : Block)

def times : Nat := (atoi b.arg).toNat

def lines : List Text := b.header :: b.startLine :: (b.body ++ [b.endLine])

def expand : List Text := (List.replicate b.times b.body).flatten

/-- The rounds that count: an empty body is left at once. -/
def rounds : Nat := if b.body = [] then 0 else b.times

end Block

inductive Item where
  | line (t : Text) (plain : ¬ beginsNoCase cmdLoop t)
  | block (b : Block)

namespace Item

def lines : Item → List Text
  | .line t _ => [t]
  | .block b => b.lines

def expand : Item → List Text
  | .line t _ => [t]
  | .block b => b.expand

def rounds : Item → Nat
  | .line _ _ => 0
  | .block b => b.rounds

end Item

def scriptLines (items : List Item) : List Text := items.flatMap Item.lines

def expand (items : List Item) : List Text := items.flatMap Item.expand

def rounds (items : List Item) : Nat := (items.map Item.rounds).sum

/-! ## The thread and the commands it passes on -/

structure Playing (σ : Type) where
  gCmdParam1 : Text
  files : Text → Option Text
  scripts : Scripts
  exited : Bool
  /-- all that the commands work on -/
  rest : σ

variable {σ : Type}

namespace Playing

def onScripts (s : Playing σ) : Except Fault Scripts → Except Fault (Unit × Playing σ)
  | .ok scripts => .ok ((), { s with scripts := scripts })
  | .error e => .error e

def answer {α : Type} (s : Playing σ) : Except Fault α → Except Fault (α × Playing σ)
  | .ok a => .ok (a, s)
  | .error e => .error e

end Playing

/-- The operations of a script thread, where memory is available, every
command returns and none of them ends the thread. -/
def playing (cmd : Text → σ → σ) : Interp cmdSig Fault (Playing σ)
  | .signal, s => .ok ((), s)
  | .print _, s => .ok ((), s)
  | .param i, s => if i = 1 then .ok (s.gCmdParam1, s) else .error .unset
  | .fopen name, s => .ok (s.files name, s)
  | .getScriptName slot, s => s.answer (s.scripts.getScriptName slot)
  | .getCountOfScriptRun slot, s => s.answer (s.scripts.getCountOfScriptRun slot)
  | .setCountOfScriptRun slot value, s => s.onScripts (s.scripts.setCountOfScriptRun slot value)
  | .setScriptThreadID slot id, s => s.onScripts (s.scripts.setScriptThreadID slot id)
  | .mallocScript slot, s =>
    match s.scripts.mallocScript slot with
    | .ok scripts => .ok (true, { s with scripts := scripts })
    | .error e => .error e
  | .mallocTemp, s => .ok (true, s)
  | .copyScript slot lines, s => s.onScripts (s.scripts.copyScript slot lines)
  | .scriptCmd slot index, s => s.answer (s.scripts.scriptCmd slot index)
  | .freeScript slot, s => s.onScripts (s.scripts.freeScript slot)
  | .pthreadExit, s => .ok ((), { s with exited := true })
  | .call line, s => .ok ((), { s with rest := cmd line s.rest })
  | .fault f, _ => .error f
  | _, _ => .error .invalid

variable {cmd : Text → σ → σ}

/-- The thread between two lines: its buffer is filled and its count is an `int`. -/
structure Loaded (slot : Slot) (lines : List Text) (s : Playing σ) : Prop where
  buffer : s.scripts.gScriptParam slot = some lines
  fits : lines.length ≤ maxScLine
  nonneg : 0 ≤ s.scripts.gScriptCount slot
  capped : s.scripts.gScriptCount slot ≤ intMax

/-- The state after passing on `passed` and counting `more` rounds. -/
def Playing.advance (cmd : Text → σ → σ) (slot : Slot) (passed : List Text) (more : Nat)
    (s : Playing σ) : Playing σ :=
  { s with
    scripts := s.scripts.counted slot more
    rest := passed.foldl (fun rest line => cmd line rest) s.rest }

section Advance

variable {slot : Slot} {lines : List Text} {s : Playing σ}

theorem Playing.advance_nil (loaded : Loaded slot lines s) : s.advance cmd slot [] 0 = s := by
  simp [Playing.advance, Scripts.counted_zero loaded.capped]

theorem Playing.advance_advance (a b : List Text) (m n : Nat) :
    (s.advance cmd slot a m).advance cmd slot b n = s.advance cmd slot (a ++ b) (m + n) := by
  simp [Playing.advance, Scripts.counted_counted]

theorem Loaded.advance (loaded : Loaded slot lines s) (cmd : Text → σ → σ) (passed : List Text)
    (more : Nat) : Loaded slot lines (s.advance cmd slot passed more) where
  buffer := loaded.buffer
  fits := loaded.fits
  nonneg := by
    have := loaded.nonneg
    simp [Playing.advance, Scripts.counted, intMax]
    omega
  capped := by
    simp only [Playing.advance, Scripts.counted, Function.update_self]
    exact Int.min_le_right _ _

theorem run_scriptCmd (loaded : Loaded slot lines s) {index : Nat} (bound : index < lines.length)
    {α : Type} (k : Text → Cmd α) :
    (scriptCmd slot index >>= k).run (playing cmd) s =
      (k (lines.getD index [])).run (playing cmd) s := by
  have room : index < maxScLine := lt_of_lt_of_le bound loaded.fits
  simp [scriptCmd, Prog.run, playing, Scripts.scriptCmd_slot loaded.buffer room, Playing.answer]

theorem run_call (loaded : Loaded slot lines s) (line : Text) {α : Type} (k : Unit → Cmd α) :
    (Cmd.call line >>= k).run (playing cmd) s =
      (k ()).run (playing cmd) (s.advance cmd slot [line] 0) := by
  simp [Cmd.call, Prog.run, playing, Playing.advance, Scripts.counted_zero loaded.capped]

theorem run_count (loaded : Loaded slot lines s) {α : Type} (k : Unit → Cmd α) :
    (getCountOfScriptRun slot >>= fun count =>
        setCountOfScriptRun slot (int32 (count + 1)) >>= k).run (playing cmd) s =
      (k ()).run (playing cmd) (s.advance cmd slot [] 1) := by
  simp [getCountOfScriptRun, setCountOfScriptRun, Prog.run, playing, Playing.answer,
    Playing.onScripts, Playing.advance,
    Scripts.setCountOfScriptRun_next loaded.nonneg loaded.capped, - Scripts.setCountOfScriptRun_slot]

end Advance

/-! ## The loops, on a suffix of the stored lines -/

section Loops

variable {slot : Slot} {s : Playing σ}

theorem getD_middle (front : List Text) (line : Text) (rest : List Text) :
    (front ++ line :: rest).getD front.length [] = line := by
  simp

theorem bound_middle (front : List Text) (line : Text) (rest : List Text) :
    front.length < (front ++ line :: rest).length := by
  simp

theorem playLines_run (front body rest : List Text)
    (loaded : Loaded slot (front ++ (body ++ rest)) s) {α : Type} (k : Unit → Cmd α) :
    (playLines slot body.length front.length >>= k).run (playing cmd) s =
      (k ()).run (playing cmd) (s.advance cmd slot body 0) := by
  induction body generalizing front s with
  | nil => simp [playLines, Playing.advance_nil loaded]
  | cons line body ih =>
    have next : Loaded slot ((front ++ [line]) ++ (body ++ rest)) (s.advance cmd slot [line] 0) := by
      simpa using loaded.advance cmd [line] 0
    have tail := ih (front ++ [line]) next
    rw [List.length_append, List.length_singleton, Playing.advance_advance] at tail
    simp only [List.length_cons, playLines, Prog.bind_assoc']
    rw [run_scriptCmd loaded (bound_middle front line (body ++ rest)), List.cons_append, getD_middle,
      run_call loaded, tail]
    rfl

/-- The rounds of a block whose body stands at `first` to `last`. -/
theorem playBlock_run (front body rest : List Text) {first last : Nat} (n : Nat)
    (hfirst : front.length = first) (hlast : last + 1 = first + body.length)
    (loaded : Loaded slot (front ++ (body ++ rest)) s) {α : Type} (k : Unit → Cmd α) :
    (playBlock slot first last n >>= k).run (playing cmd) s =
      (k ()).run (playing cmd) (s.advance cmd slot (List.replicate n body).flatten
        (if body = [] then 0 else n)) := by
  subst hfirst
  induction n generalizing s with
  | zero => simp [playBlock, Playing.advance_nil loaded]
  | succ n ih =>
    by_cases hbody : body = []
    · have empty : last < front.length := by
        simp only [hbody, List.length_nil] at hlast
        omega
      simp [playBlock, empty, hbody, Playing.advance_nil (by simpa [hbody] using loaded)]
    · have some_line : 0 < body.length := List.length_pos_iff.mpr hbody
      have enter : ¬ last < front.length := by omega
      have hcount : last + 1 - front.length = body.length := by omega
      have played := loaded.advance cmd body 0
      simp only [playBlock, enter, ↓reduceIte, hcount, Prog.bind_assoc']
      rw [playLines_run front body rest loaded, run_count played, Playing.advance_advance,
        ih (loaded.advance _ _ _), Playing.advance_advance]
      simp [hbody, List.replicate_succ, Nat.add_comm]

theorem start_not_end {line : Text} (h : beginsNoCase loopStartWord line) :
    ¬ beginsNoCase loopEndWord line := by
  cases line with
  | nil => simp [beginsNoCase, loopStartWord] at h
  | cons c line =>
    have hs : c.toLower = 's' := by
      simp [beginsNoCase, loopStartWord] at h
      exact h.1
    simp [beginsNoCase, loopEndWord, hs]

/-- The search over the lines of a body, up to the `end` line. -/
theorem scanBody_run (front body : List Text) (endLine : Text) (rest : List Text)
    (plain : ∀ line ∈ body, ¬ beginsNoCase loopStartWord line ∧ ¬ beginsNoCase loopEndWord line)
    (isEnd : beginsNoCase loopEndWord endLine) (fuel : Nat) (room : body.length < fuel)
    (loopStart : Option Nat) (loaded : Loaded slot (front ++ (body ++ endLine :: rest)) s)
    {α : Type} (k : Option Nat × Nat → Cmd α) :
    (scanBlock slot fuel front.length loopStart >>= k).run (playing cmd) s =
      (k (loopStart, front.length + body.length)).run (playing cmd) s := by
  induction body generalizing front fuel with
  | nil =>
    obtain ⟨fuel, rfl⟩ : ∃ f, fuel = f + 1 := ⟨fuel - 1, by simp at room; omega⟩
    have notStart : ¬ beginsNoCase loopStartWord endLine := fun h => start_not_end h isEnd
    have bound := bound_middle front endLine rest
    simp only [scanBlock, Prog.bind_assoc']
    rw [List.nil_append] at loaded
    rw [run_scriptCmd loaded bound, run_scriptCmd loaded bound, getD_middle]
    simp [isEnd, notStart]
  | cons line body ih =>
    obtain ⟨fuel, rfl⟩ : ∃ f, fuel = f + 1 := ⟨fuel - 1, by simp at room; omega⟩
    obtain ⟨notStart, notEnd⟩ := plain line (by simp)
    have bound := bound_middle front line (body ++ endLine :: rest)
    have tail := ih (front ++ [line]) (fun l hl => plain l (by simp [hl])) fuel
      (by simpa using room) (by simpa using loaded)
    simp only [List.length_append, List.length_singleton] at tail
    simp only [scanBlock, Prog.bind_assoc']
    rw [List.cons_append] at loaded
    rw [run_scriptCmd loaded bound, run_scriptCmd loaded bound, getD_middle]
    simp only [notStart, notEnd, Bool.false_eq_true, ↓reduceIte, tail, List.length_cons,
      Nat.add_assoc, Nat.add_comm 1]

theorem loopParameter_run {line arg : Text} (argument : strstr cSpace line = some (' ' :: arg))
    (short : arg.length ≤ 9) {α : Type} (k : Text → Cmd α) :
    (loopParameter line >>= k).run (playing cmd) s = (k arg).run (playing cmd) s := by
  have room : arg.length < 10 := by omega
  simp [loopParameter, argument, Cmd.sprintf, room]

/-- The search from the `start` line on. -/
theorem scanBlock_run (front body rest : List Text) (startLine endLine : Text) {index : Nat}
    (hindex : front.length = index)
    (isStart : beginsNoCase loopStartWord startLine)
    (plain : ∀ line ∈ body, ¬ beginsNoCase loopStartWord line ∧ ¬ beginsNoCase loopEndWord line)
    (isEnd : beginsNoCase loopEndWord endLine) (fuel : Nat) (room : body.length + 1 < fuel)
    (loopStart : Option Nat)
    (loaded : Loaded slot (front ++ startLine :: (body ++ endLine :: rest)) s)
    {α : Type} (k : Option Nat × Nat → Cmd α) :
    (scanBlock slot fuel index loopStart >>= k).run (playing cmd) s =
      (k (some (index + 1), index + 1 + body.length)).run (playing cmd) s := by
  subst hindex
  obtain ⟨fuel, rfl⟩ : ∃ f, fuel = f + 1 := ⟨fuel - 1, by omega⟩
  have bound := bound_middle front startLine (body ++ endLine :: rest)
  have tail := @scanBody_run σ cmd slot s (front ++ [startLine]) body endLine rest plain isEnd fuel
    (by omega) (some (front.length + 1)) (by simpa using loaded) α k
  simp only [List.length_append, List.length_singleton] at tail
  simp only [scanBlock, Prog.bind_assoc']
  rw [run_scriptCmd loaded bound, run_scriptCmd loaded bound, getD_middle]
  simp only [isStart, start_not_end isStart, Bool.false_eq_true, ↓reduceIte, tail]

/-- One block: the walk goes on at the line after `end`. -/
theorem scriptLoop_block (front rest : List Text) (b : Block) (fuel : Nat) (loopStart : Option Nat)
    (loaded : Loaded slot (front ++ (b.lines ++ rest)) s) :
    ∃ loopStart', (scriptLoop slot ((front ++ (b.lines ++ rest)).length - 1) (fuel + 1) front.length
        loopStart).run (playing cmd) s =
      (scriptLoop slot ((front ++ (b.lines ++ rest)).length - 1) fuel (front ++ b.lines).length
        loopStart').run (playing cmd) (s.advance cmd slot b.expand b.rounds) := by
  refine ⟨some (front.length + 2), ?_⟩
  have hlines : front ++ (b.lines ++ rest) =
      front ++ b.header :: b.startLine :: (b.body ++ b.endLine :: rest) := by
    simp [Block.lines]
  have hscan : front ++ (b.lines ++ rest) =
      (front ++ [b.header]) ++ b.startLine :: (b.body ++ b.endLine :: rest) := by
    simp [Block.lines]
  have hplay : front ++ (b.lines ++ rest) =
      (front ++ [b.header, b.startLine]) ++ (b.body ++ b.endLine :: rest) := by
    simp [Block.lines]
  have inside : ¬ front.length > (front ++ (b.lines ++ rest)).length - 1 := by
    simp [Block.lines]
  have size := loaded.fits
  simp only [Block.lines, List.length_append, List.length_cons, List.length_nil] at size
  have positive := b.positive
  have more : atoi b.arg > 0 := by omega
  generalize (front ++ (b.lines ++ rest)).length - 1 = last at inside ⊢
  have hend : (front ++ b.lines).length = front.length + 1 + 1 + b.body.length + 1 := by
    simp [Block.lines]
    omega
  simp only [scriptLoop, inside, ↓reduceIte]
  rw [run_scriptCmd (hlines ▸ loaded) (hlines ▸ bound_middle front b.header _), getD_middle]
  simp only [b.isLoop, ↓reduceIte]
  rw [loopParameter_run b.argument b.short]
  simp only [more, ↓reduceIte]
  rw [scanBlock_run (front ++ [b.header]) b.body rest b.startLine b.endLine (by simp) b.isStart
    b.plain b.isEnd _ (by omega) _ (hscan ▸ loaded)]
  simp only
  rw [playBlock_run (front ++ [b.header, b.startLine]) b.body (b.endLine :: rest) _ (by simp)
    (by omega) (hplay ▸ loaded), hend]
  rfl

theorem scriptLoop_line (front rest : List Text) {t : Text} (plain : ¬ beginsNoCase cmdLoop t)
    (fuel : Nat) (loopStart : Option Nat) (loaded : Loaded slot (front ++ t :: rest) s) :
    (scriptLoop slot ((front ++ t :: rest).length - 1) (fuel + 1) front.length
        loopStart).run (playing cmd) s =
      (scriptLoop slot ((front ++ t :: rest).length - 1) fuel (front ++ [t]).length
        loopStart).run (playing cmd) (s.advance cmd slot [t] 0) := by
  have inside : ¬ front.length > (front ++ t :: rest).length - 1 := by simp
  have bound := bound_middle front t rest
  simp only [scriptLoop, inside, ↓reduceIte]
  rw [run_scriptCmd loaded bound, getD_middle]
  simp only [plain, Bool.false_eq_true, ↓reduceIte]
  rw [run_scriptCmd loaded bound, getD_middle, run_call loaded]
  simp

/-- The walk over the items left, whatever stands before them. -/
theorem scriptLoop_items (items : List Item) (front : List Text) (fuel : Nat)
    (room : items.length < fuel) (loopStart : Option Nat)
    (some_line : front ++ scriptLines items ≠ [])
    (loaded : Loaded slot (front ++ scriptLines items) s) :
    (scriptLoop slot ((front ++ scriptLines items).length - 1) fuel front.length
        loopStart).run (playing cmd) s =
      (endScript slot).run (playing cmd) (s.advance cmd slot (expand items) (rounds items)) := by
  induction items generalizing front fuel loopStart s with
  | nil =>
    obtain ⟨fuel, rfl⟩ : ∃ f, fuel = f + 1 := ⟨fuel - 1, by omega⟩
    have nonempty : 0 < front.length := by
      simpa [scriptLines, List.length_pos_iff] using some_line
    have past : front.length > (front ++ scriptLines []).length - 1 := by
      simp [scriptLines]
      omega
    have stay : s.advance cmd slot (expand []) (rounds []) = s := Playing.advance_nil loaded
    simp only [scriptLoop, past, ↓reduceIte, stay]
  | cons item items ih =>
    obtain ⟨fuel, rfl⟩ : ∃ f, fuel = f + 1 := ⟨fuel - 1, by simp at room; omega⟩
    have hsplit : front ++ scriptLines (item :: items) = (front ++ item.lines) ++
        scriptLines items := by
      simp [scriptLines]
    have hexpand : expand (item :: items) = item.expand ++ expand items := by simp [expand]
    have hrounds : rounds (item :: items) = item.rounds + rounds items := by simp [rounds]
    have one : ∃ loopStart', (scriptLoop slot ((front ++ scriptLines (item :: items)).length - 1)
          (fuel + 1) front.length loopStart).run (playing cmd) s =
        (scriptLoop slot ((front ++ scriptLines (item :: items)).length - 1) fuel
          (front ++ item.lines).length loopStart').run (playing cmd)
            (s.advance cmd slot item.expand item.rounds) := by
      cases item with
      | line t plain => exact ⟨loopStart,
        scriptLoop_line front (scriptLines items) plain fuel _ loaded⟩
      | block b => exact scriptLoop_block front (scriptLines items) b fuel _ loaded
    obtain ⟨loopStart', first⟩ := one
    have next : Loaded slot ((front ++ item.lines) ++ scriptLines items)
        (s.advance cmd slot item.expand item.rounds) := hsplit ▸ loaded.advance _ _ _
    rw [first, hsplit, ih (front ++ item.lines) fuel (by simpa using room) loopStart'
      (hsplit ▸ some_line) next, Playing.advance_advance, hexpand, hrounds]

end Loops

/-! ## The whole thread -/

theorem reportLines_run {h : Interp cmdSig Fault (Playing σ)}
    (quiet : ∀ t s, h (.print t) s = .ok ((), s)) (reads : List Text) {s : Playing σ} {α : Type}
    (k : Unit → Cmd α) : (each reads reportLine >>= k).run h s = (k ()).run h s := by
  induction reads with
  | nil => rfl
  | cons line reads ih =>
    have one (k : Unit → Cmd α) : (reportLine line >>= k).run h s = (k ()).run h s := by
      unfold reportLine
      split
      · rfl
      · split
        · exact Prog.run_op_ok (quiet _ s)
        · rfl
    rw [each, Prog.bind_assoc', one, ih]

theorem scriptLines_ne_nil {items : List Item} (h : items ≠ []) : scriptLines items ≠ [] := by
  cases items with
  | nil => exact absurd rfl h
  | cons item items => cases item <;> simp [scriptLines, Item.lines, Block.lines]

theorem length_items_le (items : List Item) : items.length ≤ (scriptLines items).length := by
  induction items with
  | nil => simp
  | cons item items ih =>
    have one : 1 ≤ item.lines.length := by cases item <;> simp [Item.lines, Block.lines]
    have hsplit : scriptLines (item :: items) = item.lines ++ scriptLines items := by
      simp [scriptLines]
    rw [hsplit, List.length_append, List.length_cons]
    omega

/-- The state in which the walk over the lines begins. -/
def Playing.filled (slot : Slot) (lines : List Text) (s : Playing σ) : Playing σ :=
  { s with
    scripts := { s.scripts with
      gScriptParam := Function.update s.scripts.gScriptParam slot (some lines)
      gScriptCount := Function.update s.scripts.gScriptCount slot 0 } }

theorem Playing.filled_loaded (slot : Slot) {lines : List Text} (fits : lines.length ≤ maxScLine)
    (s : Playing σ) : Loaded slot lines (s.filled slot lines) where
  buffer := by simp [Playing.filled]
  fits := fits
  nonneg := by simp [Playing.filled]
  capped := by simp [Playing.filled, intMax]

/-- The thread up to the walk over the lines, which is the first to read one. -/
theorem scriptCmdProcess_fills {h : Interp cmdSig Fault (Playing σ)}
    (same : ∀ o s, (∀ slot index, o ≠ .scriptCmd slot index) → h o s = playing cmd o s)
    (slot : Slot) (file : Text) (s : Playing σ) (hslot : atoi s.gCmdParam1 = slot)
    (hfile : s.files (s.scripts.gScriptName slot) = some file)
    (some_line : scriptContent file ≠ []) (fits : (scriptContent file).length ≤ maxScLine) :
    scriptCmdProcess.run h s =
      (scriptLoop slot ((scriptContent file).length - 1) (maxScLine + 1) 0 none).run h
        (s.filled slot (scriptContent file)) := by
  have some_length : 0 < (scriptContent file).length := List.length_pos_iff.mpr some_line
  have kept : ((scriptContent file).length : Int) - 1 ≠ failed := by
    simp only [failed]
    omega
  have quiet (t : Text) (s : Playing σ) : h (.print t) s = .ok ((), s) := same _ _ (by simp)
  simp [scriptCmdProcess, Cmd.signal, Cmd.param, setCountOfScriptRun, Cmd.getScriptName, Cmd.fopen,
    Cmd.mallocScript, Cmd.mallocTemp, Cmd.copyScript,
    cpScriptContentToArray, Prog.run, same, playing, hslot, hfile, Playing.onScripts, Playing.answer,
    Prog.bind_assoc', reportLines_run quiet, kept]
  rw [Scripts.copyScript_slot (by simp) fits]
  simp [Playing.filled]

/-- A script thread that finds a well-formed script passes on the lines the
script stands for, counts its rounds, clears its handle and ends. -/
theorem scriptCmdProcess_expands (cmd : Text → σ → σ) (slot : Slot) (items : List Item)
    (file : Text) (s : Playing σ) (hslot : atoi s.gCmdParam1 = slot)
    (hfile : s.files (s.scripts.gScriptName slot) = some file)
    (stored : scriptContent file = scriptLines items) (nonempty : items ≠ [])
    (fits : (scriptLines items).length ≤ maxScLine) :
    ∃ s', scriptCmdProcess.run (playing cmd) s = .ok ((), s') ∧
      s'.rest = (expand items).foldl (fun rest line => cmd line rest) s.rest ∧
      s'.scripts.gScriptCount slot = min (rounds items : Int) intMax ∧
      s'.scripts.thrScriptId slot = 0 ∧ s'.exited = true := by
  have loaded := Playing.filled_loaded slot fits s
  have room : items.length < maxScLine + 1 := by
    have := length_items_le items
    omega
  have walk := @scriptLoop_items σ cmd slot _ items [] (maxScLine + 1) room none
    (scriptLines_ne_nil nonempty) loaded
  simp only [List.nil_append, List.length_nil] at walk
  rw [scriptCmdProcess_fills (fun _ _ _ => rfl) slot file s hslot hfile
    (stored ▸ scriptLines_ne_nil nonempty)
    (stored ▸ fits), stored, walk]
  simp [endScript, Cmd.freeScript, Cmd.setScriptThreadID, Cmd.pthreadExit, Prog.run, playing,
    Playing.onScripts, Playing.advance, Playing.filled, Scripts.counted]

def delayTwice : Block where
  header := "Loop 2".toList
  arg := "2".toList
  startLine := "start".toList
  body := ["dy 1".toList, "look".toList]
  endLine := "end".toList
  isLoop := by decide
  argument := by decide
  short := by decide
  positive := by decide
  isStart := by decide
  plain := by decide
  isEnd := by decide

def delayTwiceFile : Text := "#c\nLoop 2;\nstart;\ndy 1;\nlook;\nend;\nshow;\n".toList

/-- A thread that collects the lines it passes on. -/
def collecting : Playing (List Text) where
  gCmdParam1 := "3".toList
  files := fun name => if name = "f".toList then some delayTwiceFile else none
  scripts := { Scripts.empty with gScriptName := fun _ => "f".toList }
  exited := false
  rest := []

theorem scriptCmdProcess_delayTwice :
    ∃ s', scriptCmdProcess.run (playing fun line passed => passed ++ [line]) collecting =
        .ok ((), s') ∧
      s'.rest = ["dy 1".toList, "look".toList, "dy 1".toList, "look".toList, "show".toList] ∧
      s'.scripts.gScriptCount 3 = 2 ∧ s'.scripts.thrScriptId 3 = 0 ∧ s'.exited = true := by
  obtain ⟨s', hrun, hrest, hcount, hid, hexit⟩ :=
    scriptCmdProcess_expands (fun line passed => passed ++ [line]) 3
      [.block delayTwice, .line "show".toList (by decide)] delayTwiceFile collecting (by decide)
      (by decide) (by decide +kernel) (by decide) (by decide)
  exact ⟨s', hrun, hrest, hcount, hid, hexit⟩

end AutoTest
