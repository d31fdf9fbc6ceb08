import Mathlib.Data.List.Basic
import Mathlib.Data.List.Range
import Mathlib.Algebra.Order.Ring.Int

/-!
# Message queues over byte memory

`msgsnd` and `msgrcv` of System V, as accesses to a memory: the message type
is the `long` at the pointer, the body starts after it, and the size passed
counts the body alone.

* `msgrcv_msgsnd`: what is sent from one place is read back at another.
* `msgsnd_inside_iff`, `msgrcv_inside_iff`: an object holds a message when it
  has room for the type beside the body.
-/

namespace ByteQueue

/-! ## Words -/

/-- The value of bytes in little-endian order. -/
def word : List UInt8 → Nat
  | [] => 0
  | b :: bs => b.toNat + 256 * word bs

def wordBytes : Nat → Nat → List UInt8
  | 0, _ => []
  | n + 1, x => UInt8.ofNat x :: wordBytes n (x / 256)

theorem wordBytes_word (bs : List UInt8) : wordBytes bs.length (word bs) = bs := by
  induction bs with
  | nil => rfl
  | cons b bs ih =>
    have low : b.toNat < 256 := b.toNat_lt
    have rest : (b.toNat + 256 * word bs) / 256 = word bs := by omega
    have head : UInt8.ofNat (b.toNat + 256 * word bs) = b := by
      apply UInt8.toNat.inj
      simp only [UInt8.toNat_ofNat']
      omega
    rw [List.length_cons, word, wordBytes, rest, head, ih]

theorem word_lt (bs : List UInt8) : word bs < 256 ^ bs.length := by
  induction bs with
  | nil => simp [word]
  | cons b bs ih =>
    have low : b.toNat < 256 := b.toNat_lt
    rw [List.length_cons, Nat.pow_succ, word]
    omega

/-- `sizeof(long)` -/
def longSize : Nat := 8

@[irreducible] def long (bs : List UInt8) : Int := (word bs : Int).bmod (2 ^ 64)

def longBytes (x : Int) : List UInt8 := wordBytes longSize (x % 2 ^ 64).toNat

theorem longBytes_long {bs : List UInt8} (size : bs.length = longSize) :
    longBytes (long bs) = bs := by
  have small : word bs < 2 ^ 64 := by
    have bound := word_lt bs
    rw [size] at bound
    exact bound
  have value : (long bs % 2 ^ 64).toNat = word bs := by
    unfold long
    have same : (word bs : Int).bmod (2 ^ 64) % (2 ^ 64 : Nat) = word bs % (2 ^ 64 : Nat) :=
      Int.bmod_emod
    omega
  rw [longBytes, value, ← size, wordBytes_word]

@[simp] theorem wordBytes_length (n x : Nat) : (wordBytes n x).length = n := by
  induction n generalizing x with
  | zero => rfl
  | succ n ih => rw [wordBytes, List.length_cons, ih]

/-- A word whose last byte leaves the sign clear is its own value. -/
theorem long_eq {bs : List UInt8} (clear : word bs < 2 ^ 63) : long bs = word bs := by
  unfold long
  exact Int.bmod_eq_of_le (by omega) (by omega)

/-! ## Memory -/

structure Memory where
  bytes : Nat → UInt8
  /-- the addresses that were accessed -/
  touched : List Nat

/-- The `n` bytes from `p` on. -/
def view (bytes : Nat → UInt8) (p n : Nat) : List UInt8 := (List.range' p n).map bytes

def place (p : Nat) (bs : List UInt8) (bytes : Nat → UInt8) : Nat → UInt8 := fun a =>
  if p ≤ a then bs.getD (a - p) (bytes a) else bytes a

@[simp] theorem view_length (bytes : Nat → UInt8) (p n : Nat) : (view bytes p n).length = n := by
  simp [view]

theorem view_append (bytes : Nat → UInt8) (p m n : Nat) :
    view bytes p (m + n) = view bytes p m ++ view bytes (p + m) n := by
  rw [view, view, view, ← List.map_append, List.range'_append_1]

theorem view_take (bytes : Nat → UInt8) (p : Nat) {m n : Nat} (small : m ≤ n) :
    (view bytes p n).take m = view bytes p m := by
  obtain ⟨k, rfl⟩ := Nat.exists_eq_add_of_le small
  rw [view_append, List.take_left' (view_length bytes p m)]

theorem view_place (p : Nat) (bs : List UInt8) (bytes : Nat → UInt8) :
    view (place p bs bytes) p bs.length = bs := by
  apply List.ext_getElem
  · simp
  · intro i _ inside
    simp [view, place, inside]

/-- Placing bytes leaves those before them. -/
theorem view_place_before {p q n : Nat} (before : p + n ≤ q) (bs : List UInt8) (bytes : Nat → UInt8) :
    view (place q bs bytes) p n = view bytes p n := by
  apply List.map_congr_left
  intro a inside
  have below : ¬ q ≤ a := by
    have := List.mem_range'_1.mp inside
    omega
  rw [place, if_neg below]

namespace Memory

def load (p n : Nat) (mem : Memory) : List UInt8 × Memory :=
  (view mem.bytes p n, { mem with touched := mem.touched ++ List.range' p n })

def store (p : Nat) (bs : List UInt8) (mem : Memory) : Memory :=
  ⟨place p bs mem.bytes, mem.touched ++ List.range' p bs.length⟩

/-- Nothing was accessed but the `n` bytes from `p` on. -/
def Inside (p n : Nat) (mem : Memory) : Prop := ∀ a ∈ mem.touched, p ≤ a ∧ a < p + n

end Memory

/-! ## Queues -/

structure Message where
  type : Int
  body : List UInt8

/-- A type that is not positive is refused before the body is read. -/
def msgsnd (p size : Nat) (mem : Memory) : Option Message × Memory :=
  let (bs, mem) := mem.load p longSize
  if long bs ≤ 0 then (none, mem)
  else
    let (body, mem) := mem.load (p + longSize) size
    (some ⟨long bs, body⟩, mem)

/-- The message is the first of the queue; one that is longer than `size` is
left there. -/
def msgrcv (p size : Nat) (msg : Message) (mem : Memory) : Int × Memory :=
  if size < msg.body.length then (-1, mem)
  else (msg.body.length, (mem.store p (longBytes msg.type)).store (p + longSize) msg.body)

section Hop

variable {p size : Nat} {mem : Memory}

theorem msgsnd_refuses (refused : long (view mem.bytes p longSize) ≤ 0) :
    msgsnd p size mem = (none, (mem.load p longSize).2) := if_pos refused

theorem msgsnd_sends (positive : 0 < long (view mem.bytes p longSize)) : msgsnd p size mem =
    (some ⟨long (view mem.bytes p longSize), view mem.bytes (p + longSize) size⟩,
      ((mem.load p longSize).2.load (p + longSize) size).2) :=
  if_neg (Int.not_le.mpr positive)

theorem msgrcv_msgsnd {q : Nat} {msg : Message} {other : Memory}
    (sent : (msgsnd p size mem).1 = some msg) : (msgrcv q size msg other).1 = size ∧
      view (msgrcv q size msg other).2.bytes q (longSize + size) = view mem.bytes p
        (longSize + size) := by
  have positive : 0 < long (view mem.bytes p longSize) := by
    by_contra refused
    rw [msgsnd_refuses (Int.not_lt.mp refused)] at sent
    cases sent
  rw [msgsnd_sends positive] at sent
  obtain rfl := Option.some.inj sent
  have fits : ¬ size < (view mem.bytes (p + longSize) size).length := by simp
  have type := longBytes_long (view_length mem.bytes p longSize)
  rw [msgrcv, if_neg fits]
  simp only [Memory.store, type, view_length, true_and]
  rw [view_append, view_append]
  congr 1
  · rw [view_place_before (Nat.le_refl _)]
    simpa only [view_length] using view_place q (view mem.bytes p longSize) other.bytes
  · simpa only [view_length] using view_place (q + longSize) (view mem.bytes (p + longSize) size) _

theorem inside_iff {n : Nat} (room : 0 < size) :
    (∀ a ∈ List.range' p longSize ++ List.range' (p + longSize) size, p ≤ a ∧ a < p + n) ↔
      longSize + size ≤ n := by
  rw [List.range'_append_1]
  constructor
  · intro inside
    have last := inside (p + (longSize + size - 1)) (List.mem_range'_1.mpr (by omega))
    omega
  · intro fits a touched
    have := List.mem_range'_1.mp touched
    omega

theorem msgsnd_inside_iff {n : Nat} (fresh : mem.touched = []) (room : 0 < size)
    (positive : 0 < long (view mem.bytes p longSize)) :
    (msgsnd p size mem).2.Inside p n ↔ longSize + size ≤ n := by
  rw [msgsnd_sends positive, ← inside_iff (p := p) room]
  simp only [Memory.Inside, Memory.load, fresh, List.nil_append]

theorem msgrcv_inside_iff {n : Nat} {msg : Message} (fresh : mem.touched = [])
    (room : 0 < msg.body.length) (fits : msg.body.length ≤ size) :
    (msgrcv p size msg mem).2.Inside p n ↔ longSize + msg.body.length ≤ n := by
  rw [msgrcv, if_neg (Nat.not_lt.mpr fits), ← inside_iff (p := p) room]
  simp only [Memory.Inside, Memory.store, fresh, List.nil_append, longBytes, wordBytes_length]

end Hop

end ByteQueue
