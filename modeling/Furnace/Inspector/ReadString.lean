import Furnace.Inspector.Tracer
import Mathlib.Data.Nat.Find

namespace Furnace.Inspector

open Furnace.Lib Furnace.Lib.Libgen

/-!
# Copying a string out of the tracee

`read_reg_string`, word by word.  `ptrace` returns a word of the tracee's memory or `-1`, which is
also a word; the bytes of a word go to `*file` up to a NUL, and without one the next word follows,
however many there have been.

* `nextWord`, `readState` — one turn of the loop, and the state after `n` turns.
* `exists_reading_iff` — the loop goes on as long as the words `Passes`; `reading_spec` and
  `returned_spec` say what has been written then and at the NUL.
* `CopiesExactly`, `copiesExactly_iff` — **the memory contents of which the copy is exact and stays
  within `PATH_MAX` bytes**.
* `readRegString_iff` — the tracer's model, which goes by the string, agrees with this one.
-/

/-! ### The loop -/

/-- The memory of the tracee; some of it cannot be read. -/
abbrev Memory := UInt64 → Option UInt8

/-- `n` bytes from an address on, if all of them can be read. -/
def peek (mem : Memory) (addr : UInt64) : ℕ → Option (List UInt8)
  | 0 => some []
  | n + 1 => do
    let b ← mem addr
    let p ← peek mem (addr + 1) n
    some (b :: p)

/-- `ptrace(PTRACE_PEEKTEXT, child, addr, NULL)`: the bytes of a `long`. -/
def peekText (mem : Memory) (addr : UInt64) : Option (List UInt8) := peek mem addr 8

/-- The `long` that equals `-1`. -/
def allOnes : List UInt8 := List.replicate 8 0xff

/-- The loop over the bytes of a word: what `file` holds afterwards, and whether it was left at a
    NUL. -/
def copyBytes : List UInt8 → List UInt8 → List UInt8 × Bool
  | [], file => (file, false)
  | b :: p, file => if b = 0 then (file ++ [b], true) else copyBytes p (file ++ [b])

/-- Where `read_reg_string` is, with the bytes that it has written. -/
inductive ReadState
  | reading (childAddr : UInt64) (file : List UInt8)
  | returned (file : List UInt8)
  /-- `exit(1)` ends the tracer. -/
  | exited (file : List UInt8)
  deriving DecidableEq

def ReadState.file : ReadState → List UInt8
  | .reading _ file | .returned file | .exited file => file

/-- One turn of the loop. -/
def nextWord (mem : Memory) : ReadState → ReadState
  | .reading childAddr file =>
    match peekText mem childAddr with
    | none => .exited file
    | some val =>
      -- the word may be the tracee's own
      if val = allOnes then .exited file
      else match copyBytes val file with
      | (file, false) => .reading (childAddr + 8) file
      | (file, true) => .returned file
  | s => s

/-- `read_reg_string` of the address `addr`, after `n` turns. -/
def readState (mem : Memory) (addr : UInt64) : ℕ → ReadState
  | 0 => .reading addr []
  | n + 1 => nextWord mem (readState mem addr n)

/-! ### The bytes at an address -/

/-- Bytes stand in memory from an address on. -/
def BytesAt (mem : Memory) : UInt64 → List UInt8 → Prop
  | _, [] => True
  | addr, b :: p => mem addr = some b ∧ BytesAt mem (addr + 1) p

section

variable {mem : Memory} {addr : UInt64}

private theorem add_ofNat_succ (addr : UInt64) (n : ℕ) :
    addr + 1 + .ofNat n = addr + .ofNat (n + 1) := by
  rw [UInt64.ofNat_add, UInt64.add_assoc, UInt64.add_comm 1]
  rfl

theorem bytesAt_append (p q : List UInt8) : BytesAt mem addr (p ++ q) ↔
    BytesAt mem addr p ∧ BytesAt mem (addr + .ofNat p.length) q := by
  induction p generalizing addr with
  | nil => simp [BytesAt]
  | cons b p ih =>
    show _ ∧ BytesAt mem (addr + 1) (p ++ q) ↔ (_ ∧ BytesAt mem (addr + 1) p) ∧ _
    rw [ih, add_ofNat_succ, and_assoc]
    rfl

theorem bytesAt_of_getElem? {p : List UInt8}
    (h : ∀ i < p.length, mem (addr + .ofNat i) = p[i]?) : BytesAt mem addr p := by
  induction p generalizing addr with
  | nil => trivial
  | cons b p ih =>
    refine ⟨by simpa using h 0 (by simp), ih fun i hi => ?_⟩
    rw [add_ofNat_succ]
    simpa using h (i + 1) (by simpa using hi)

/-- Of two byte strings at one address, the shorter one is the start of the other. -/
theorem BytesAt.isPrefix {p q : List UInt8} (hp : BytesAt mem addr p) (hq : BytesAt mem addr q)
    (hlen : p.length ≤ q.length) : p <+: q := by
  induction p generalizing addr q with
  | nil => exact List.nil_prefix
  | cons b p ih =>
    cases q with
    | nil => simp at hlen
    | cons b' q =>
      have hb : b = b' := Option.some.inj (hp.1.symm.trans hq.1)
      have htail := ih hp.2 hq.2 (by simpa using hlen)
      exact List.cons_prefix_cons.mpr ⟨hb, htail⟩

theorem peek_eq_some_iff {n : ℕ} {p : List UInt8} :
    peek mem addr n = some p ↔ p.length = n ∧ BytesAt mem addr p := by
  induction n generalizing addr p with
  | zero =>
    rw [peek, Option.some_inj, List.length_eq_zero_iff]
    constructor
    · rintro rfl
      exact ⟨rfl, trivial⟩
    · exact fun h => h.1.symm
  | succ n ih =>
    simp only [peek, Option.bind_eq_bind, Option.bind_eq_some_iff, Option.some_inj]
    constructor
    · rintro ⟨b, hb, q, hq, rfl⟩
      obtain ⟨hlen, hat⟩ := ih.mp hq
      exact ⟨by simp [hlen], hb, hat⟩
    · rintro ⟨hlen, hat⟩
      cases p with
      | nil => simp at hlen
      | cons b q => exact ⟨b, hat.1, q, ih.mpr ⟨by simpa using hlen, hat.2⟩, rfl⟩

end

/-- The word number `k` behind an address. -/
def word (mem : Memory) (addr : UInt64) (k : ℕ) : Option (List UInt8) :=
  peekText mem (addr + .ofNat (8 * k))

/-- A word after which the loop goes on. -/
def Passes (mem : Memory) (addr : UInt64) (k : ℕ) : Prop :=
  ∃ w, word mem addr k = some w ∧ w ≠ allOnes ∧ 0 ∉ w

section

variable {mem : Memory} {addr : UInt64} {n : ℕ}

theorem word_eq_some_iff {k : ℕ} {w : List UInt8} : word mem addr k = some w ↔
    w.length = 8 ∧ BytesAt mem (addr + .ofNat (8 * k)) w :=
  peek_eq_some_iff

/-- The words of the bytes at an address. -/
theorem BytesAt.word_eq {p : List UInt8} (h : BytesAt mem addr p) {k : ℕ}
    (hk : 8 * k + 8 ≤ p.length) : word mem addr k = some ((p.drop (8 * k)).take 8) := by
  have hlen : (p.take (8 * k)).length = 8 * k := by
    rw [List.length_take]
    omega
  have hsplit : p = p.take (8 * k) ++ ((p.drop (8 * k)).take 8 ++ (p.drop (8 * k)).drop 8) := by
    rw [List.take_append_drop, List.take_append_drop]
  rw [hsplit, bytesAt_append, hlen, bytesAt_append] at h
  refine word_eq_some_iff.mpr ⟨?_, h.2.1⟩
  rw [List.length_take, List.length_drop]
  omega

/-! ### One turn -/

/-- What the byte loop does. -/
theorem copyBytes_eq (p file : List UInt8) : copyBytes p file =
    if 0 ∈ p then (file ++ p.takeWhile (· ≠ 0) ++ [0], true) else (file ++ p, false) := by
  induction p generalizing file with
  | nil => simp [copyBytes]
  | cons b p ih =>
    rw [copyBytes]
    by_cases hb : b = 0
    · subst hb
      simp
    · have hb' : ¬ 0 = b := fun h => hb h.symm
      rw [if_neg hb, ih]
      simp [hb, hb']

/-- The turn at a word that cannot be read, or that equals `-1`. -/
theorem nextWord_exited {a : UInt64} {file : List UInt8}
    (h : peekText mem a = none ∨ peekText mem a = some allOnes) :
    nextWord mem (.reading a file) = .exited file := by
  rcases h with h | h
  · rw [nextWord, h]
  · rw [nextWord, h]
    simp

/-- The turn at a word of other bytes without a NUL. -/
theorem nextWord_reading {a : UInt64} {file w : List UInt8} (hw : peekText mem a = some w)
    (hne : w ≠ allOnes) (h0 : 0 ∉ w) :
    nextWord mem (.reading a file) = .reading (a + 8) (file ++ w) := by
  rw [nextWord, hw]
  simp [hne, copyBytes_eq, h0]

theorem ne_allOnes {w : List UInt8} (h0 : 0 ∈ w) : w ≠ allOnes := by
  rintro rfl
  simp [allOnes] at h0

/-- The turn at a word with a NUL. -/
theorem nextWord_returned {a : UInt64} {file w : List UInt8} (hw : peekText mem a = some w)
    (h0 : 0 ∈ w) :
    nextWord mem (.reading a file) = .returned (file ++ w.takeWhile (· ≠ 0) ++ [0]) := by
  rw [nextWord, hw]
  simp [ne_allOnes h0, copyBytes_eq, h0]

end

/-! ### Strings in memory -/

/-- A string stands in memory with its NUL. -/
def StringAt (mem : Memory) (addr : UInt64) (s : CStr) : Prop :=
  0 ∉ s ∧ BytesAt mem addr (s ++ [0])

/-- A word at which the tracer exits: it cannot be read, or it equals `-1`. -/
def Faults (mem : Memory) (addr : UInt64) (k : ℕ) : Prop :=
  word mem addr k = none ∨ word mem addr k = some allOnes

section

variable {mem : Memory} {addr : UInt64} {s : CStr}

theorem BytesAt.stringAt {t : CStr} (h : BytesAt mem addr (s ++ 0 :: t)) (h0 : 0 ∉ s) :
    StringAt mem addr s := by
  rw [show s ++ 0 :: t = s ++ [0] ++ t by simp, bytesAt_append] at h
  exact ⟨h0, h.1⟩

private theorem takeWhile_nul (h0 : 0 ∉ s) (t : CStr) :
    (s ++ 0 :: t).takeWhile (· ≠ 0) = s := by
  have hall : ∀ b ∈ s, decide (b ≠ 0) = true := by
    intro b hb
    have hne : b ≠ 0 := by
      rintro rfl
      exact h0 hb
    simpa using hne
  rw [List.takeWhile_append_of_pos hall]
  simp

/-- There is at most one string at an address. -/
theorem StringAt.unique {s' : CStr} (h : StringAt mem addr s) (h' : StringAt mem addr s') :
    s = s' := by
  have hle : ∀ {p q : CStr}, StringAt mem addr p → StringAt mem addr q →
      p.length ≤ q.length → p = q := by
    intro p q hp hq hlen
    obtain ⟨t, ht⟩ := hp.2.isPrefix hq.2 (by simpa using hlen)
    calc p = (p ++ 0 :: t).takeWhile (· ≠ 0) := (takeWhile_nul hp.1 t).symm
      _ = (q ++ [0]).takeWhile (· ≠ 0) := by rw [← ht, List.append_assoc]; rfl
      _ = q := takeWhile_nul hq.1 []
  rcases le_total s.length s'.length with hlen | hlen
  · exact hle h h' hlen
  · exact (hle h' h hlen).symm

/-- The words of a string before the one with its NUL. -/
theorem StringAt.word_eq (h : StringAt mem addr s) {k : ℕ} (hk : k < s.length / 8) :
    word mem addr k = some ((s.drop (8 * k)).take 8) :=
  ((bytesAt_append s [0]).mp h.2).1.word_eq (by omega)

/-- The word with the NUL of a string. -/
theorem StringAt.mem_word (h : StringAt mem addr s) {w : List UInt8}
    (hw : word mem addr (s.length / 8) = some w) : 0 ∈ w := by
  obtain ⟨hlen, hat⟩ := word_eq_some_iff.mp hw
  have htake : (s.take (8 * (s.length / 8))).length = 8 * (s.length / 8) := by
    rw [List.length_take]
    omega
  have hsplit : s ++ [0] = s.take (8 * (s.length / 8)) ++ (s.drop (8 * (s.length / 8)) ++ [0]) := by
    rw [← List.append_assoc, List.take_append_drop]
  have hend := h.2
  rw [hsplit, bytesAt_append, htake] at hend
  have hle : (s.drop (8 * (s.length / 8)) ++ [0]).length ≤ w.length := by
    rw [List.length_append, List.length_drop, hlen]
    simp only [List.length_singleton]
    omega
  exact (hend.2.isPrefix hat hle).subset (by simp)

/-! ### The run -/

/-- A string that starts with eight bytes `0xff` faults. -/
theorem BytesAt.faults_zero {t : CStr} (h : BytesAt mem addr (allOnes ++ t)) :
    Faults mem addr 0 := by
  right
  refine word_eq_some_iff.mpr ⟨rfl, ?_⟩
  rw [show addr + .ofNat (8 * 0) = addr from UInt64.add_zero addr]
  exact ((bytesAt_append allOnes t).mp h).1

theorem not_faults {k : ℕ} {w : List UInt8} (hw : word mem addr k = some w)
    (hne : w ≠ allOnes) : ¬ Faults mem addr k := by
  rintro (hf | hf)
  · rw [hw] at hf
    cases hf
  · rw [hw] at hf
    exact hne (Option.some.inj hf)

theorem not_faults_of_passes {k : ℕ} (h : Passes mem addr k) : ¬ Faults mem addr k := by
  obtain ⟨w, hw, hne, -⟩ := h
  exact not_faults hw hne

theorem not_faults_of_nul {k : ℕ} {w : List UInt8} (hw : word mem addr k = some w) (h0 : 0 ∈ w) :
    ¬ Faults mem addr k :=
  not_faults hw (ne_allOnes h0)

/-- A word after which the loop does not go on. -/
theorem faults_or_nul {k : ℕ} (h : ¬ Passes mem addr k) :
    Faults mem addr k ∨ ∃ w, word mem addr k = some w ∧ 0 ∈ w := by
  cases hw : word mem addr k with
  | none => exact .inl (.inl hw)
  | some w =>
    by_cases hne : w = allOnes
    · exact .inl (.inr (by rw [hw, hne]))
    · exact .inr ⟨w, rfl, by_contra fun h0 => h ⟨w, hw, hne, h0⟩⟩

/-- The first word after which the loop does not go on. -/
theorem passes_upTo (mem : Memory) (addr : UInt64) (n : ℕ) : (∀ k < n, Passes mem addr k) ∨
    ∃ m < n, (∀ k < m, Passes mem addr k) ∧ ¬ Passes mem addr m := by
  classical
  by_cases h : ∃ m, m < n ∧ ¬ Passes mem addr m
  · right
    obtain ⟨hlt, hnot⟩ := Nat.find_spec h
    refine ⟨Nat.find h, hlt, fun k hk => ?_, hnot⟩
    exact by_contra fun hp => Nat.find_min h hk ⟨hk.trans hlt, hp⟩
  · left
    exact fun k hk => by_contra fun hp => h ⟨k, hk, hp⟩

/-- **The loop while the words pass.** It has copied all of them. -/
theorem readState_of_passes {n : ℕ} (h : ∀ k < n, Passes mem addr k) : ∃ file,
    readState mem addr n = .reading (addr + .ofNat (8 * n)) file ∧
      file.length = 8 * n ∧ 0 ∉ file ∧ BytesAt mem addr file := by
  induction n with
  | zero => exact ⟨[], by simp [readState], rfl, by simp, trivial⟩
  | succ n ih =>
    obtain ⟨file, hstate, hlen, h0, hat⟩ := ih fun k hk => h k (hk.trans n.lt_succ_self)
    obtain ⟨w, hw, hne, hw0⟩ := h n n.lt_succ_self
    obtain ⟨hw8, hwat⟩ := word_eq_some_iff.mp hw
    refine ⟨file ++ w, ?_, by simp [hlen, hw8]; omega, by simp [h0, hw0], ?_⟩
    · rw [readState, hstate, nextWord_reading hw hne hw0, UInt64.add_assoc]
      rw [show 8 * (n + 1) = 8 * n + 8 from rfl, UInt64.ofNat_add]
      rfl
    · rw [bytesAt_append, hlen]
      exact ⟨hat, hwat⟩

/-- A turn after the end of the function changes nothing. -/
theorem readState_of_ended {m n : ℕ} (hmn : m ≤ n)
    (h : ∀ a file, readState mem addr m ≠ .reading a file) :
    readState mem addr n = readState mem addr m := by
  induction hmn with
  | refl => rfl
  | @step n _ ih =>
    rw [readState, ih]
    cases hstate : readState mem addr m with
    | reading a file => exact absurd hstate (h a file)
    | returned file => rfl
    | exited file => rfl

/-- The first word that does not pass ends the tracer if it faults. -/
theorem readState_exited {m n : ℕ} (h : ∀ k < m, Passes mem addr k) (hf : Faults mem addr m)
    (hn : m < n) : ∃ file, readState mem addr n = .exited file ∧ file.length = 8 * m := by
  obtain ⟨file, hstate, hlen, -⟩ := readState_of_passes h
  have hnext : readState mem addr (m + 1) = .exited file := by
    rw [readState, hstate, nextWord_exited hf]
  refine ⟨file, ?_, hlen⟩
  rw [readState_of_ended hn (by simp [hnext]), hnext]

/-- At a NUL the function returns, with the string in the buffer. -/
theorem readState_returned {m n : ℕ} {w : List UInt8} (h : ∀ k < m, Passes mem addr k)
    (hw : word mem addr m = some w) (h0 : 0 ∈ w) (hn : m < n) :
    ∃ s, StringAt mem addr s ∧ s.length / 8 = m ∧ readState mem addr n = .returned (s ++ [0]) := by
  obtain ⟨file, hstate, hlen, hfile, hat⟩ := readState_of_passes h
  obtain ⟨hw8, hwat⟩ := word_eq_some_iff.mp hw
  obtain ⟨p, q, rfl, hp⟩ := List.eq_append_cons_of_mem h0
  have hnext : readState mem addr (m + 1) = .returned (file ++ p ++ [0]) := by
    rw [readState, hstate, nextWord_returned hw h0, takeWhile_nul hp]
  have hbytes : BytesAt mem addr (file ++ p ++ 0 :: q) := by
    rw [List.append_assoc, bytesAt_append, hlen]
    exact ⟨hat, hwat⟩
  refine ⟨file ++ p, hbytes.stringAt (by simp [hfile, hp]), ?_, ?_⟩
  · simp only [List.length_append, List.length_cons] at hw8 ⊢
    omega
  · rw [readState_of_ended hn (by simp [hnext]), hnext]

/-! ### The bound -/

/-- **What stays within the buffer.** Some word of the first `PATH_MAX` bytes has a NUL or faults,
    or the next one faults. -/
theorem within_iff : (∀ n, (readState mem addr n).file.length ≤ PATH_MAX) ↔
    (∃ k < PATH_MAX / 8, ¬ Passes mem addr k) ∨ Faults mem addr (PATH_MAX / 8) := by
  rw [show PATH_MAX / 8 = 512 from rfl, show PATH_MAX = 4096 from rfl]
  constructor
  · intro hle
    by_contra hno
    rw [not_or] at hno
    have hall : ∀ k < 512, Passes mem addr k :=
      fun k hk => by_contra fun hp => hno.1 ⟨k, hk, hp⟩
    have hlen := hle 513
    by_cases hp : Passes mem addr 512
    · obtain ⟨file, hstate, hfile, -⟩ := readState_of_passes (n := 513) fun k hk =>
        (Nat.lt_succ_iff_lt_or_eq.mp hk).elim (hall k) fun h => h ▸ hp
      rw [hstate] at hlen
      simp only [ReadState.file] at hlen
      omega
    · obtain ⟨w, hw, h0⟩ := (faults_or_nul hp).resolve_left hno.2
      obtain ⟨s, -, hs, hstate⟩ := readState_returned hall hw h0 (Nat.lt_succ_self 512)
      rw [hstate] at hlen
      simp only [ReadState.file, List.length_append, List.length_singleton] at hlen
      omega
  · intro hend n
    -- the words pass up to number 512 at most, and the latter then faults
    have hstop : ∀ m, (∀ k < m, Passes mem addr k) → m < 512 ∨ m = 512 ∧ Faults mem addr 512 := by
      intro m hall
      rcases hend with ⟨k, hk, hp⟩ | hf
      · exact .inl (lt_of_le_of_lt (not_lt.mp fun h => hp (hall k h)) hk)
      · have hle : m ≤ 512 := not_lt.mp fun h => not_faults_of_passes (hall 512 h) hf
        exact hle.lt_or_eq.imp id fun h => ⟨h, hf⟩
    rcases passes_upTo mem addr n with hall | ⟨m, hm, hall, hp⟩
    · obtain ⟨file, hstate, hfile, -⟩ := readState_of_passes hall
      rw [hstate]
      show file.length ≤ 4096
      have hn := hstop n hall
      omega
    · rcases faults_or_nul hp with hf | ⟨w, hw, h0⟩
      · obtain ⟨file, hstate, hfile⟩ := readState_exited hall hf hm
        rw [hstate]
        show file.length ≤ 4096
        have hn := hstop m hall
        omega
      · obtain ⟨s, -, hs, hstate⟩ := readState_returned hall hw h0 hm
        have hlt : m < 512 := (hstop m hall).resolve_right fun h =>
          not_faults_of_nul (h.1 ▸ hw) h0 h.2
        rw [hstate]
        show (s ++ [0]).length ≤ 4096
        rw [List.length_append, List.length_singleton]
        omega

/-! ### The string -/

/-- Where the function returns it was at a NUL, with the string in the buffer. -/
theorem exists_of_returned {n : ℕ} {file : List UInt8}
    (h : readState mem addr n = .returned file) : ∃ s, file = s ++ [0] ∧ StringAt mem addr s ∧
      (∀ k < s.length / 8, Passes mem addr k) ∧
      ∃ w, word mem addr (s.length / 8) = some w ∧ 0 ∈ w := by
  rcases passes_upTo mem addr n with hall | ⟨m, hm, hall, hp⟩
  · obtain ⟨file', hstate, -⟩ := readState_of_passes hall
    rw [hstate] at h
    cases h
  · rcases faults_or_nul hp with hf | ⟨w, hw, h0⟩
    · obtain ⟨file', hstate, -⟩ := readState_exited hall hf hm
      rw [hstate] at h
      cases h
    · obtain ⟨s, hs, rfl, hstate⟩ := readState_returned hall hw h0 hm
      rw [hstate] at h
      cases h
      exact ⟨s, rfl, hs, hall, w, hw, h0⟩

/-- **What is copied.** A string arrives if and only if none of its words faults. -/
theorem returned_iff (hs : StringAt mem addr s) :
    (∃ n, readState mem addr n = .returned (s ++ [0])) ↔
      ∀ k ≤ s.length / 8, ¬ Faults mem addr k := by
  constructor
  · rintro ⟨n, hn⟩
    obtain ⟨s', heq, -, hall, w, hw, h0⟩ := exists_of_returned hn
    obtain rfl := List.append_cancel_right heq
    intro k hk
    rcases hk.lt_or_eq with hlt | rfl
    · exact not_faults_of_passes (hall k hlt)
    · exact not_faults_of_nul hw h0
  · intro hclear
    have hall : ∀ k < s.length / 8, Passes mem addr k := by
      intro k hk
      have hw := hs.word_eq hk
      refine ⟨_, hw, fun h => hclear k hk.le (.inr (by rw [hw, h])), fun h0 => hs.1 ?_⟩
      exact List.mem_of_mem_drop (List.mem_of_mem_take h0)
    cases hw : word mem addr (s.length / 8) with
    | none => exact absurd (.inl hw) (hclear _ le_rfl)
    | some w =>
      obtain ⟨s', hs', -, hstate⟩ :=
        readState_returned hall hw (hs.mem_word hw) (Nat.lt_succ_self _)
      obtain rfl := hs.unique hs'
      exact ⟨_, hstate⟩

theorem readRegString_eq_some_iff {a : Stop} {reg : ℕ} : readRegString a reg = some s ↔
    a.str reg = some s ∧ ∀ k < s.length / 8, (s.drop (8 * k)).take 8 ≠ allOnes := by
  rw [readRegString, Option.bind_eq_some_iff]
  constructor
  · rintro ⟨s', hstr, h⟩
    split_ifs at h with hany
    cases h
    refine ⟨hstr, fun k hk hones => hany ?_⟩
    exact List.any_eq_true.mpr ⟨k, List.mem_range.mpr hk, decide_eq_true hones⟩
  · rintro ⟨hstr, hwords⟩
    refine ⟨s, hstr, if_neg fun hany => ?_⟩
    obtain ⟨k, hk, hones⟩ := List.any_eq_true.mp hany
    exact hwords k (List.mem_range.mp hk) (of_decide_eq_true hones)

/-- What a seccomp stop says of the string at an address. -/
def Stop.Shows (a : Stop) (reg : ℕ) (mem : Memory) (addr : UInt64) : Prop :=
  ∀ s, a.str reg = some s ↔ StringAt mem addr s ∧ word mem addr (s.length / 8) ≠ none

/-- **The tracer's model of the function.** It gives the string that the loop returns with, and
    nothing where the loop does not return. -/
theorem readRegString_iff {a : Stop} {reg : ℕ} (hshows : a.Shows reg mem addr) :
    readRegString a reg = some s ↔ ∃ n, readState mem addr n = .returned (s ++ [0]) := by
  rw [readRegString_eq_some_iff, hshows]
  constructor
  · rintro ⟨⟨hs, hlast⟩, hwords⟩
    refine (returned_iff hs).mpr fun k hk => ?_
    rcases hk.lt_or_eq with hlt | rfl
    · exact not_faults (hs.word_eq hlt) (hwords k hlt)
    · obtain ⟨w, hw⟩ := Option.ne_none_iff_exists'.mp hlast
      exact not_faults_of_nul hw (hs.mem_word hw)
  · rintro ⟨n, hn⟩
    obtain ⟨s', heq, hs, hall, w, hw, -⟩ := exists_of_returned hn
    obtain rfl := List.append_cancel_right heq
    refine ⟨⟨hs, by simp [hw]⟩, fun k hk hones => ?_⟩
    exact not_faults_of_passes (hall k hk) (.inr (by rw [hs.word_eq hk, hones]))

end

/-! ### Exactness -/

/-- **The buffer holds the string.** Nothing is written beyond it, and a string that fits arrives
    whole, with the tracer running on. -/
structure CopiesExactly (mem : Memory) (addr : UInt64) : Prop where
  within : ∀ n, (readState mem addr n).file.length ≤ PATH_MAX
  copied : ∀ s, StringAt mem addr s → s.length < PATH_MAX →
    ∃ n, readState mem addr n = .returned (s ++ [0])

/-- **When the copy is exact.** The memory has to end the copy within the buffer, and no word of a
    string that fits may be unreadable or equal `-1`, the bytes behind its NUL included. -/
theorem copiesExactly_iff (mem : Memory) (addr : UInt64) : CopiesExactly mem addr ↔
    ((∃ k < PATH_MAX / 8, ¬ Passes mem addr k) ∨ Faults mem addr (PATH_MAX / 8)) ∧
      ∀ s, StringAt mem addr s → s.length < PATH_MAX →
        ∀ k ≤ s.length / 8, ¬ Faults mem addr k := by
  constructor
  · rintro ⟨hwithin, hcopied⟩
    exact ⟨within_iff.mp hwithin, fun s hs hlen => (returned_iff hs).mp (hcopied s hs hlen)⟩
  · rintro ⟨hend, hclear⟩
    exact ⟨within_iff.mpr hend, fun s hs hlen => (returned_iff hs).mpr (hclear s hs hlen)⟩

/-- A mapping of the tracee, with nothing mapped around it. -/
def mapping (base : UInt64) (contents : List UInt8) : Memory :=
  fun addr => contents[(addr - base).toNat]?

theorem bytesAt_mapping (base : UInt64) (contents : List UInt8)
    (hlen : contents.length < UInt64.size) : BytesAt (mapping base contents) base contents := by
  refine bytesAt_of_getElem? fun i hi => ?_
  have hdiff : base + .ofNat i - base = .ofNat i := by
    rw [UInt64.add_comm, UInt64.add_sub_cancel]
  rw [mapping, hdiff, UInt64.toNat_ofNat', Nat.mod_eq_of_lt (hi.trans hlen)]

/-- Two pages without a NUL, eight bytes `0xff` with a NUL behind them, and an empty string in the
    last byte of a page: the buffer is overrun, the tracer exits on the string, and it exits on
    what follows the string. -/
theorem not_copiesExactly :
    ¬ CopiesExactly (mapping 0x400000 (List.replicate 8192 97)) 0x400000 ∧
    ¬ CopiesExactly (mapping 0x400000 (allOnes ++ List.replicate 4088 0)) 0x400000 ∧
    ¬ CopiesExactly (mapping 0x400000 (List.replicate 4096 0)) 0x400fff := by
  refine ⟨fun h => ?_, fun h => ?_, fun h => ?_⟩
  · have hat := bytesAt_mapping 0x400000 (List.replicate 8192 97)
      (by rw [List.length_replicate]; decide)
    have hword : ∀ k ≤ 512, word (mapping 0x400000 (List.replicate 8192 97)) 0x400000 k =
        some (List.replicate 8 97) := by
      intro k hk
      rw [hat.word_eq (by rw [List.length_replicate]; omega), List.drop_replicate,
        List.take_replicate, Nat.min_eq_left (by omega)]
    rcases within_iff.mp h.within with ⟨k, hk, hp⟩ | hf
    · exact hp ⟨_, hword k hk.le, by decide, by decide⟩
    · exact not_faults (hword 512 le_rfl) (by decide) hf
  · have hat := bytesAt_mapping 0x400000 (allOnes ++ List.replicate 4088 0)
      (by rw [List.length_append, List.length_replicate]; decide)
    have hclear := (returned_iff (hat.stringAt (by decide))).mp
      (h.copied allOnes (hat.stringAt (by decide)) (by decide))
    exact hclear 0 (Nat.zero_le _) hat.faults_zero
  · have hs : StringAt (mapping 0x400000 (List.replicate 4096 0)) 0x400fff [] :=
      ⟨List.not_mem_nil, List.getElem?_replicate_of_lt (by decide), trivial⟩
    have hclear := (returned_iff hs).mp (h.copied [] hs (by decide))
    have hnext : mapping 0x400000 (List.replicate 4096 0) (0x400fff + 1) = none :=
      List.getElem?_eq_none (by rw [List.length_replicate]; decide)
    refine hclear 0 le_rfl (.inl ?_)
    show peek (mapping 0x400000 (List.replicate 4096 0)) 0x400fff 8 = none
    simp only [peek, hnext, Option.bind_eq_bind, Option.bind_none, Option.bind_fun_none]

end Furnace.Inspector
