import AutoTest.Ownership

/-!
# The registry as a map

* `Book` is what the four arrays stand for: some clients have an address.
* `Faithful` ties every array to the book: a USED entry holds its address text
  and the parsed address, an UNUSED one holds neither.
* `Net.add_refines`, `Net.del_refines`: the commands are the operations of the
  book, and an entry whose book entry stays the same looks the same.
* `registry_refines`: so for every run of lines whose tokens survive the copy
  into the buffer of `getTokens`.
-/

namespace AutoTest

open CString Strtok Program

abbrev Book := Client → Option Text

namespace Book

/-- `add n a`, with the outcome of the `socket` call. -/
def add (inet : Inet) (created : Bool) (clientNum : Int) (ipAddr : Text) (book : Book) : Book :=
  match clientIndex clientNum with
  | none => book
  | some n =>
    if book n = none ∧ (inet.pton ipAddr).isSome ∧ created then
      Function.update book n (some ipAddr)
    else book

def del (clientNum : Int) (book : Book) : Book :=
  match clientIndex clientNum with
  | none => book
  | some n => Function.update book n none

end Book

def Net.book (s : Net) : Book := fun n =>
  if s.gClientFlag n = used then some (cstring (s.gClientIpAddr n)) else none

/-- Whether the next `socket` call for this client number succeeds. -/
def Net.created (answer : Nat → Int) (clientNum : Int) (s : Net) : Bool :=
  match clientIndex clientNum with
  | none => false
  | some n => (s.socket answer n).1 ≠ failed

/-- All that the other functions can read about a client. -/
structure Seen (n : Client) (s s' : Net) : Prop where
  flag : s'.getClientFlag n = s.getClientFlag n
  text : s'.getClientIpAddr n = s.getClientIpAddr n
  addr : s'.clientSockAddr n = s.clientSockAddr n
  socket : s'.getSocket n = s.getSocket n

theorem Net.SameEntry.seen {n : Client} {s s' : Net} (h : Net.SameEntry n s s') : Seen n s s' where
  flag := by simp [h.flag]
  text := by simp [Net.getClientIpAddr, h.text]
  addr := h.addr
  socket := by simp [Net.getSocket, h.flag, h.socket]

theorem Seen.refl (n : Client) (s : Net) : Seen n s s := ⟨rfl, rfl, rfl, rfl⟩

/-- What every entry of the registry holds. -/
structure Faithful (inet : Inet) (s : Net) : Prop where
  flags : ∀ n, s.gClientFlag n = used ∨ s.gClientFlag n = unused
  holds : ∀ n t, s.book n = some t →
    ∃ v, inet.pton t = some v ∧ s.clientSockAddr n = ⟨afInet, serverPort, v⟩
  empty : ∀ n, s.book n = none →
    s.getClientIpAddr n = some [] ∧ s.clientSockAddr n = .zero

/-- One step of the registry is one step of the book. -/
structure Refines (inet : Inet) (book : Book) (s s' : Net) : Prop where
  book : s'.book = book
  kept : ∀ n, s'.book n = s.book n → Seen n s s'
  faithful : Faithful inet s'

section Steps

variable {inet : Inet} {s : Net}

theorem Refines.same (h : Faithful inet s) : Refines inet s.book s s :=
  ⟨rfl, fun n _ => .refl n s, h⟩

theorem book_none_iff (n : Client) : s.book n = none ↔ s.gClientFlag n ≠ used := by
  simp [Net.book]

/-- A step that fills or empties one entry and leaves the others. -/
theorem Refines.update (h : Faithful inet s) {s' : Net} {n : Client} {entry : Option Text}
    (others : ∀ m, m ≠ n → Net.SameEntry m s s')
    (entered : s'.book n = entry) (moved : s.book n ≠ entry)
    (flag : s'.gClientFlag n = used ∨ s'.gClientFlag n = unused)
    (holds : ∀ t, entry = some t →
      ∃ v, inet.pton t = some v ∧ s'.clientSockAddr n = ⟨afInet, serverPort, v⟩)
    (empty : entry = none → s'.getClientIpAddr n = some [] ∧ s'.clientSockAddr n = .zero) :
    Refines inet (Function.update s.book n entry) s s' := by
  have other (m : Client) (hm : m ≠ n) : s'.book m = s.book m := by
    simp [Net.book, (others m hm).flag, (others m hm).text]
  refine ⟨?_, fun m hm => ?_, fun m => ?_, fun m t hm => ?_, fun m hm => ?_⟩
  · funext m
    by_cases same : m = n
    · simp [same, entered]
    · simp [same, other m same]
  · have apart : m ≠ n := by
      rintro rfl
      exact moved (hm ▸ entered)
    exact (others m apart).seen
  · by_cases same : m = n
    · exact same ▸ flag
    · rw [(others m same).flag]
      exact h.flags m
  · by_cases same : m = n
    · subst same
      exact holds t (entered.symm.trans hm)
    · obtain ⟨v, hv, haddr⟩ := h.holds m t ((other m same).symm.trans hm)
      exact ⟨v, hv, (others m same).addr.trans haddr⟩
  · by_cases same : m = n
    · subst same
      exact empty (entered.symm.trans hm)
    · obtain ⟨text, addr⟩ := h.empty m ((other m same).symm.trans hm)
      exact ⟨(others m same).seen.text.trans text, (others m same).addr.trans addr⟩

theorem insert_refused_same (answer : Nat → Int) (n : Client) (ipAddr : Text)
    (refused : s.gClientFlag n = used ∨ inet.pton ipAddr = none) :
    s.insert inet answer n ipAddr = s := by
  unfold Net.insert
  rcases refused with flag | valid
  · simp [flag]
  · simp [valid]

theorem reserve_failed_refines (h : Faithful inet s) (answer : Nat → Int) (n : Client)
    (flag : s.gClientFlag n ≠ used) (no : s.socket answer n = (failed,
      { s with socketCalls := s.socketCalls + 1 })) : Refines inet s.book s (s.reserve answer n) := by
  have unusedFlag := (h.flags n).resolve_left flag
  simp only [Net.reserve, no]
  refine ⟨rfl, fun m _ => ⟨rfl, rfl, rfl, ?_⟩, ⟨h.flags, h.holds, h.empty⟩⟩
  by_cases same : m = n
  · simp [Net.getSocket, same, unusedFlag]
  · simp [Net.getSocket, same]

theorem insert_refines (h : Faithful inet s) (answer : Nat → Int) (n : Client) (ipAddr : Text) :
    Refines inet (s.book.add inet (s.created answer n) n ipAddr) s
      (s.insert inet answer n ipAddr) := by
  unfold Book.add Net.created
  simp only [clientIndex_cast]
  by_cases flag : s.gClientFlag n = used
  · have taken : ¬ s.book n = none := by simp [book_none_iff, flag]
    simp only [taken, false_and, ↓reduceIte, insert_refused_same answer n ipAddr (.inl flag)]
    exact .same h
  have free : s.book n = none := (book_none_iff n).mpr flag
  cases valid : inet.pton ipAddr with
  | none =>
    rw [insert_refused_same answer n ipAddr (.inr valid)]
    simp only [Option.isSome_none, Bool.false_eq_true, false_and, and_false, ↓reduceIte]
    exact .same h
  | some v =>
    rcases s.socket_cases answer n with ⟨d, hd, -, hsock⟩ | hsock
    · have hinsert : s.insert inet answer n ipAddr = (((s.reserve answer n).withSockAddr n
          ⟨afInet, serverPort, (inet.aton ipAddr).getD 0⟩).withFlag n used).withText n ipAddr := by
        simp [Net.insert, flag, valid, hsock, hd]
      simp only [free, Option.isSome_some, hsock, hd, ne_eq, not_false_eq_true, decide_true, and_self,
        ↓reduceIte, hinsert]
      refine .update h (fun m hm => ?_) ?_ (by simp [free]) ?_ (fun t ht => ⟨v, ?_, ?_⟩) (by simp)
      · constructor <;> simp [Net.withText, Net.withFlag, Net.withSockAddr, Net.reserve, hsock, hm]
      · simp [Net.book, Net.withText, Net.withFlag, Net.withSockAddr, cstring_cells_append, cstring]
      · simp [Net.withText, Net.withFlag]
      · obtain rfl : ipAddr = t := Option.some.inj ht
        exact valid
      · simp [Net.withText, Net.withFlag, Net.withSockAddr, inet.agree ipAddr v valid]
    · have hinsert : s.insert inet answer n ipAddr = s.reserve answer n := by
        simp [Net.insert, flag, valid, hsock]
      simp only [hsock, ne_eq, not_true_eq_false, decide_false, Bool.false_eq_true, and_false,
        ↓reduceIte, hinsert]
      exact reserve_failed_refines h answer n flag hsock

theorem add_refines (h : Faithful inet s) (answer : Nat → Int) (clientNum : Int) (ipAddr : Text) :
    Refines inet (s.book.add inet (s.created answer clientNum) clientNum ipAddr) s
      (s.add inet answer clientNum ipAddr) := by
  cases hindex : clientIndex clientNum with
  | none => simpa [Net.add, Book.add, hindex] using Refines.same h
  | some n =>
    obtain rfl := clientIndex_some hindex
    simpa [Net.add] using insert_refines h answer n ipAddr

theorem del_refines (h : Faithful inet s) (clientNum : Int) :
    Refines inet (s.book.del clientNum) s (s.del clientNum) := by
  cases hindex : clientIndex clientNum with
  | none => simpa [Net.del, Book.del, hindex] using Refines.same h
  | some n =>
    obtain rfl := clientIndex_some hindex
    simp only [Net.del, Book.del, clientIndex_cast]
    by_cases flag : s.gClientFlag n = unused
    · have absent : s.book n = none := by simp [book_none_iff, flag, used, unused]
      have stays : Function.update s.book n none = s.book := by
        rw [← absent, Function.update_eq_self]
      rw [if_pos flag, stays]
      exact .same h
    · have present : s.gClientFlag n = used := (h.flags n).resolve_right flag
      obtain ⟨hflag, htext, haddr⟩ := s.remove_self n
      rw [if_neg flag]
      refine .update h (fun m hm => Net.remove_other hm s) ?_ ?_ (.inr hflag)
        (by simp) fun _ => ⟨?_, haddr⟩
      · simp [book_none_iff, hflag, used, unused]
      · simp [book_none_iff, present]
      · simp [Net.getClientIpAddr, htext]

theorem empty_faithful (fds : Int → Option Holder) : Faithful inet (.empty fds) where
  flags _ := .inr rfl
  holds n t h := by simp [Net.book, Net.empty, used, unused] at h
  empty n _ := by simp [Net.getClientIpAddr, Net.empty, maxIpLenth, List.replicate, cstring]

end Steps

/-! ## Lines -/

/-- A line with the arguments that its usage text asks for. -/
inductive UsageLine where
  | add (line name t ipAddr : Text) (more : List Text)
      (split : words cSpace line = name :: t :: ipAddr :: more)
      (named : commandFunc name = some .addClient)
  | del (line name t : Text) (more : List Text)
      (split : words cSpace line = name :: t :: more)
      (named : commandFunc name = some .delClient)

namespace UsageLine

def line : UsageLine → Text
  | .add line .. => line
  | .del line .. => line

/-- The words that the command uses. -/
def needed : UsageLine → List Text
  | .add _ name t ipAddr .. => [name, t, ipAddr]
  | .del _ name t .. => [name, t]

/-- What the line does to the book of the registry it finds. -/
def book (host : Host) (s : Net) : UsageLine → Book
  | .add _ _ t ipAddr .. => s.book.add host.inet (s.created host.socket (atoi t)) (atoi t) ipAddr
  | .del _ _ t .. => s.book.del (atoi t)

/-- The words needed come through the formatted copy of 255 characters. -/
def Survives (l : UsageLine) : Prop := ∃ more, lineTokens l.line = some (l.needed ++ more)

/-- A line without a directive that fits the buffer. -/
theorem survives_of_plain (l : UsageLine) (plain : '%' ∉ l.line) (fits : l.line.length ≤ 255) :
    l.Survives := by
  have whole : l.line.take (maxScContent - 1) = l.line := List.take_of_length_le fits
  have tokens : lineTokens l.line = some ((words cSpace l.line).take maxToken) := by
    rw [lineTokens, snprintf_plain plain, whole, Option.map_some]
  cases l with
  | add line name t ipAddr more split named =>
    exact ⟨more.take 12, by rw [tokens]; simp [UsageLine.line, split, needed, maxToken]⟩
  | del line name t more split named =>
    exact ⟨more.take 13, by rw [tokens]; simp [UsageLine.line, split, needed, maxToken]⟩

variable (host : Host) (callee : Text → World → Except Fault World)

def step (l : UsageLine) : World → Except Fault World := perform host callee (cmdProc l.line)

theorem step_refines (l : UsageLine) (survives : l.Survives) {w : World}
    (h : Faithful host.inet w.shared.net) :
    ∃ w', l.step host callee w = .ok w' ∧
      Refines host.inet (l.book host w.shared.net) w.shared.net w'.shared.net := by
  obtain ⟨more, tokens⟩ := survives
  cases l with
  | add line name t ipAddr rest split named =>
    obtain ⟨cmdNum, code, func⟩ := Option.map_eq_some_iff.mp named
    let parsed : RegistryLine := ⟨line, _, cmdNum, tokens, code, .inl func⟩
    obtain ⟨p, out, hrun⟩ :=
      parsed.perform_line host callee (w := w) (fun hdel => by simp [parsed, func] at hdel)
    refine ⟨_, hrun, ?_⟩
    have effect : parsed.effect host w.shared.net =
        w.shared.net.add host.inet host.socket (atoi t) ipAddr := by
      simp [RegistryLine.effect, parsed, func, needed]
    simpa [World.withNet, effect, book] using add_refines h host.socket (atoi t) ipAddr
  | del line name t rest split named =>
    obtain ⟨cmdNum, code, func⟩ := Option.map_eq_some_iff.mp named
    let parsed : RegistryLine := ⟨line, _, cmdNum, tokens, code, .inr func⟩
    obtain ⟨p, out, hrun⟩ :=
      parsed.perform_line host callee (w := w) (fun _ => .inl (by simp [parsed, needed]))
    refine ⟨_, hrun, ?_⟩
    have effect : parsed.effect host w.shared.net = w.shared.net.del (atoi t) := by
      simp [RegistryLine.effect, parsed, func, needed]
    simpa [World.withNet, effect, book] using del_refines h (atoi t)

end UsageLine

/-- From the empty registry, lines whose words survive take the registry through
the steps of its book, each of them defined. -/
theorem registry_refines (host : Host) (callee : Text → World → Except Fault World)
    (opened : Int → Bool) (lines : List UsageLine) (survive : ∀ l ∈ lines, l.Survives) :
    Throughout (UsageLine.step host callee)
      (fun l w w' => Refines host.inet (l.book host w.shared.net) w.shared.net w'.shared.net) lines
      ⟨.initial, .initial (processFds opened)⟩ := by
  refine throughout_of_along (fun w => Faithful host.inet w.shared.net) ?_
    (empty_faithful (processFds opened)) (along_of_forall (fun l hl _ => survive l hl) _)
  intro l w h survives
  obtain ⟨w', hrun, refines⟩ := l.step_refines host callee survives h
  exact ⟨w', hrun, refines, refines.faithful⟩

def addLong : UsageLine :=
  .add "add 1 192.168.10.101".toList "add".toList "1".toList "192.168.10.101".toList []
    (by decide +kernel) (by decide)

def delLong : UsageLine :=
  .del "dl 1".toList "dl".toList "1".toList [] (by decide +kernel) (by decide)

def addShort : UsageLine :=
  .add "ad 1 10.0.0.1".toList "ad".toList "1".toList "10.0.0.1".toList []
    (by decide +kernel) (by decide)

/-- A host whose `socket` calls answer 0, 1, 2 and so on. -/
def countingHost : Host := .willing (fun n => n) (fun _ => none) fun _ => none

/-- Client 1 again, with a shorter address. -/
theorem registry_refines_shorter : Throughout (UsageLine.step countingHost fun _ => .ok)
    (fun l w w' => Refines .strict (l.book countingHost w.shared.net) w.shared.net w'.shared.net)
    [addLong, delLong, addShort] ⟨.initial, .initial (processFds fun _ => false)⟩ := by
  refine registry_refines countingHost (fun _ => .ok) (fun _ => false)
    [addLong, delLong, addShort] ?_
  intro l hl
  refine l.survives_of_plain ?_ ?_ <;> revert l <;> decide +kernel

/-- A line whose address stands across the end of the buffer. -/
def addAcross : UsageLine :=
  .add ("add 1".toList ++ List.replicate 238 ' ' ++ "192.168.10.101".toList) "add".toList "1".toList
    "192.168.10.101".toList [] (by decide +kernel) (by decide)

/-- The address is cut to another valid one, which is inserted. -/
theorem addAcross_inserts_another : ¬ Throughout (UsageLine.step countingHost fun _ => .ok)
    (fun l w w' => Refines .strict (l.book countingHost w.shared.net) w.shared.net w'.shared.net)
    [addAcross] ⟨.initial, .initial (processFds fun _ => false)⟩ := by
  rintro ⟨w', hrun, refines, -⟩
  have inserted : (addAcross.step countingHost (fun _ => .ok)
      ⟨.initial, .initial (processFds fun _ => false)⟩).toOption.map
        (fun w => w.shared.net.book 1) = some (some "192.168.10.1".toList) := by
    decide +kernel
  have wanted : addAcross.book countingHost (.empty (processFds fun _ => false)) 1 =
      some "192.168.10.101".toList := by
    decide +kernel
  rw [hrun] at inserted
  have found : w'.shared.net.book 1 = some "192.168.10.1".toList := by
    simpa [Except.toOption] using inserted
  have expected : w'.shared.net.book 1 = some "192.168.10.101".toList := by
    rw [refines.book]
    exact wanted
  rw [found] at expected
  exact absurd expected (by decide)

end AutoTest
