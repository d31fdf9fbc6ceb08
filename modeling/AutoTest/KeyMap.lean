import AutoTest.Network

/-! The key table of `keyMap.c`, whose other entries are empty, and the message
that carries key codes to a phone. -/

namespace AutoTest

open CString

def maxKeyNum : Nat := 255
def maxIoevt : Nat := 10
def maxKeyLenth : Nat := 5
def keyPress : Text := "p".toList
def keyLongPress : Text := "l".toList

structure AtKey where
  keyName : Text
  keyCode : Text
  deriving DecidableEq, Repr

def AtKey.texts (k : AtKey) : List Text := [k.keyName, k.keyCode]

private def key (name code : String) : AtKey := ⟨name.toList, code.toList⟩

def keyTable : List (Nat × AtKey) :=
  [(34, key "s1" "251"), (4, key "s2" "252"), (44, key "s3" "253"), (24, key "s4" "254"),
   (14, key "up" "31"), (54, key "dn" "32"),
   (3, key "1" "49"), (2, key "2" "50"), (41, key "3" "51"), (33, key "4" "52"),
   (32, key "5" "53"), (31, key "6" "54"), (13, key "7" "55"), (12, key "8" "56"),
   (1, key "9" "57"), (52, key "0" "48"), (53, key "*" "10"), (51, key "#" "11"),
   (22, key "vd" "47"), (42, key "me" "64"), (43, key "vu" "46"), (11, key "rl" "63"),
   (25, key "he" "61"), (15, key "le1" "151"), (5, key "le2" "152"),
   (100, key "offhook" "100"), (101, key "onhook" "101")]

def gKeyLib (index : Nat) : AtKey := (keyTable.lookup index).getD ⟨[], []⟩

/-- The first entry with this name or code, `FAILED` being `none`. -/
def getKeyCode (str : Text) : Option Nat :=
  (List.range maxKeyNum).find? fun index => str ∈ (gKeyLib index).texts

/-- `ioevt_t`: ten key codes, the unused ones empty, and an action. -/
structure Ioevt where
  ioevt : List Text
  action : Text
  deriving DecidableEq, Repr

inductive CmdParam where
  | shared (t : Text)
  | ioevtObj (o : Ioevt)
  deriving DecidableEq, Repr

structure CmdObj where
  cmdCode : Text
  cmdParamObj : CmdParam
  deriving DecidableEq, Repr

structure MsgQ where
  clientNum : Int
  cmdObj : CmdObj
  deriving DecidableEq, Repr

/-- Every name and code of the table leads to its own entry. -/
theorem getKeyCode_table :
    ∀ p ∈ keyTable, ∀ k ∈ p.2.texts, getKeyCode k = some p.1 ∧ gKeyLib p.1 = p.2 := by
  decide +kernel

theorem gKeyLib_mem {index : Nat} (h : gKeyLib index ≠ ⟨[], []⟩) :
    (index, gKeyLib index) ∈ keyTable := by
  unfold gKeyLib at *
  cases hl : keyTable.lookup index with
  | none => simp [hl] at h
  | some e =>
    obtain ⟨before, after, hsplit, _⟩ := List.lookup_eq_some_iff.mp hl
    simp [hsplit]

end AutoTest
