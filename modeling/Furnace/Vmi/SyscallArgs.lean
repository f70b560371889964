import Furnace.Vmi.Syscalls

namespace Furnace.Vmi

open Furnace.Proto Furnace.Lib

/-!
# The arguments of a system call

On Windows the callback of the plugin fetches the arguments of the system call: of a 32-bit guest
all of them from the stack, of a 64-bit guest the first four from registers and the others from
the stack, where they lie behind the return address and the space of those four.

* `winArgs` — the arguments, or none of them if the stack cannot be read.
* `winArgs_eq` — **the two layouts agree**: an argument that is in no register is in the slot of
  its own number, counted from the return address.
-/

/-! ### The code -/

/-- `reg_size`, which is `4` or `8` bytes. -/
inductive RegSize
  | four | eight

/-- The number of bytes. -/
def RegSize.bytes : RegSize → ℕ
  | .four => 4
  | .eight => 8

/-- The registers that the callback reads. -/
structure Regs where
  rcx : UInt64
  rdx : UInt64
  r8 : UInt64
  r9 : UInt64
  rsp : UInt64

/-- `vmi_read`: it fails if one of the bytes cannot be read. -/
def vmiRead (mem : UInt64 → Option UInt8) (addr : UInt64) (count : ℕ) : Option Bytes :=
  (List.range count).mapM fun i => mem (addr + .ofNat i)

/-- The number in a cell of the buffer. -/
def cell : Bytes → UInt64
  | [] => 0
  | b :: bs => b.toUInt64 + 256 * cell bs

/-- The buffer as an array of `n` numbers of `size` bytes. -/
def cells (size n : ℕ) (buf : Bytes) : List UInt64 :=
  (List.range n).map fun i => cell ((buf.drop (size * i)).take size)

/-- What `win_cb` fetches of a system call of `nargs` arguments. -/
def winArgs (size : RegSize) (regs : Regs) (mem : UInt64 → Option UInt8) (nargs : ℕ) :
    Option (List UInt64) :=
  if nargs = 0 then some []
  else match size with
    | .four =>
      -- jump over base pointer
      (vmiRead mem (regs.rsp + 4) (4 * nargs)).map (cells 4 nargs)
    | .eight =>
      let first := [regs.rcx, regs.rdx, regs.r8, regs.r9].take nargs
      if nargs > 4 then
        -- jump over homing space + base pointer
        (vmiRead mem (regs.rsp + 0x28) (8 * (nargs - 4))).map fun buf =>
          first ++ cells 8 (nargs - 4) buf
      else some first

/-! ### The layout -/

/-- The slot of the stack with a number, counted from the return address. -/
def stackSlot (size : RegSize) (regs : Regs) (mem : UInt64 → Option UInt8) (i : ℕ) :
    Option UInt64 :=
  (vmiRead mem (regs.rsp + .ofNat (size.bytes * i)) size.bytes).map cell

/-- An argument of the calling convention. -/
def argument (size : RegSize) (regs : Regs) (mem : UInt64 → Option UInt8) (i : ℕ) :
    Option UInt64 :=
  match size, i with
  | .eight, 0 => some regs.rcx
  | .eight, 1 => some regs.rdx
  | .eight, 2 => some regs.r8
  | .eight, 3 => some regs.r9
  | size, i => stackSlot size regs mem (i + 1)

section Reads

variable {mem : UInt64 → Option UInt8} {a : UInt64} {size n : ℕ}

/-- A read goes on where another one has ended. -/
theorem vmiRead_add (mem : UInt64 → Option UInt8) (a : UInt64) (m n : ℕ) :
    vmiRead mem a (m + n) = (vmiRead mem a m).bind fun bs =>
      (vmiRead mem (a + .ofNat m) n).map (bs ++ ·) := by
  have hshift : ∀ i, a + .ofNat (m + i) = a + .ofNat m + .ofNat i := by
    intro i
    rw [UInt64.ofNat_add, UInt64.add_assoc]
  unfold vmiRead
  rw [mapM_range_add]
  simp only [hshift]

/-- A read that succeeds gives all bytes. -/
theorem length_vmiRead {bs : Bytes} (h : vmiRead mem a n = some bs) : bs.length = n := by
  induction n generalizing bs with
  | zero =>
    cases h
    rfl
  | succ n ih =>
    rw [vmiRead, mapM_range_succ] at h
    obtain ⟨bs', hbs, h⟩ := Option.bind_eq_some_iff.mp h
    obtain ⟨b, -, rfl⟩ := Option.map_eq_some_iff.mp h
    rw [List.length_append, ih hbs, List.length_singleton]

/-- The cells of a buffer with one cell more. -/
theorem cells_succ {buf last : Bytes} (hbuf : buf.length = size * n) (hlast : last.length = size) :
    cells size (n + 1) (buf ++ last) = cells size n buf ++ [cell last] := by
  unfold cells
  rw [List.range_succ, List.map_append, List.map_singleton]
  congr 1
  · refine List.map_congr_left fun i hi => ?_
    have hlt : i < n := List.mem_range.mp hi
    have hle : size * i + size ≤ buf.length := by
      rw [hbuf, ← Nat.mul_succ]
      exact Nat.mul_le_mul_left size hlt
    rw [List.drop_append_of_le_length (by omega), List.take_append_of_le_length]
    rw [List.length_drop]
    omega
  · rw [← hbuf, List.drop_left, ← hlast, List.take_length]

/-- **A read of many cells** is the reads of the cells. -/
theorem vmiRead_cells (mem : UInt64 → Option UInt8) (a : UInt64) (size n : ℕ) :
    (vmiRead mem a (size * n)).map (cells size n) =
      (List.range n).mapM fun i => (vmiRead mem (a + .ofNat (size * i)) size).map cell := by
  induction n with
  | zero => rfl
  | succ n ih =>
    rw [Nat.mul_succ, vmiRead_add, mapM_range_succ, ← ih]
    cases hbuf : vmiRead mem a (size * n) with
    | none => rfl
    | some buf =>
      cases hlast : vmiRead mem (a + .ofNat (size * n)) size with
      | none => rfl
      | some last =>
        exact congrArg some (cells_succ (length_vmiRead hbuf) (length_vmiRead hlast))

end Reads

/-- **The arguments are those of the calling convention**, in both widths: one that is in no
    register is in the slot behind those of the arguments before it, and if one slot cannot be
    read there are no arguments. -/
theorem winArgs_eq (size : RegSize) (regs : Regs) (mem : UInt64 → Option UInt8) (nargs : ℕ) :
    winArgs size regs mem nargs = (List.range nargs).mapM (argument size regs mem) := by
  unfold winArgs
  by_cases hzero : nargs = 0
  · rw [if_pos hzero, hzero]
    rfl
  · rw [if_neg hzero]
    cases size with
    | four =>
      dsimp only
      rw [vmiRead_cells]
      congr 1
      funext i
      show _ = (vmiRead mem (regs.rsp + .ofNat (4 * (i + 1))) 4).map cell
      rw [show 4 * (i + 1) = 4 + 4 * i by omega, UInt64.ofNat_add, ← UInt64.add_assoc]
      rfl
    | eight =>
      dsimp only
      by_cases hmore : nargs > 4
      · obtain ⟨n, rfl⟩ : ∃ n, nargs = 4 + n := ⟨nargs - 4, by omega⟩
        have hslots : ∀ i, argument .eight regs mem (4 + i) =
            (vmiRead mem (regs.rsp + 0x28 + .ofNat (8 * i)) 8).map cell := by
          intro i
          rw [Nat.add_comm 4 i]
          show (vmiRead mem (regs.rsp + .ofNat (8 * (i + 4 + 1))) 8).map cell = _
          rw [show 8 * (i + 4 + 1) = 40 + 8 * i by omega, UInt64.ofNat_add, ← UInt64.add_assoc]
          rfl
        have hfirst : (List.range 4).mapM (argument .eight regs mem) =
            some [regs.rcx, regs.rdx, regs.r8, regs.r9] := rfl
        have htake : [regs.rcx, regs.rdx, regs.r8, regs.r9].take (4 + n) =
            [regs.rcx, regs.rdx, regs.r8, regs.r9] := List.take_of_length_le (by simp)
        rw [if_pos hmore, Nat.add_sub_cancel_left, mapM_range_add, hfirst, htake,
          Option.bind_some, funext hslots, ← vmiRead_cells, Option.map_map]
        rfl
      -- all arguments are in registers
      · rw [if_neg hmore]
        have hfew : nargs = 1 ∨ nargs = 2 ∨ nargs = 3 ∨ nargs = 4 := by omega
        rcases hfew with rfl | rfl | rfl | rfl <;> rfl

end Furnace.Vmi
