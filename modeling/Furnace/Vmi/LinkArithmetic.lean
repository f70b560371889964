import Mathlib.Algebra.Ring.Int.Defs
import Furnace.Vmi.LinkResolution
import Furnace.Vmi.LinkSafety

namespace Furnace.Vmi

open Furnace.Proto Furnace.Lib

/-!
# The arithmetic of links

`process_link` widens both numbers to `uint64_t`, a negative one with its sign, computes
there, and narrows the result to the type of the target field.  Here the outcome is compared
with the sum, the difference or the source value as an integer.

* `ExactOrRejected` — a link that is taken leaves exactly that integer in the target field,
  and one whose integer is negative after a subtraction, or does not fit, is rejected.
* `ExactRange` — the numbers for which this is so.
-/

/-- A numeric field as an integer, with its sign. -/
def intValue (m : Msg) (fd : FieldDescriptor) : Option ℤ :=
  match fd.type with
  | .uint64 => some ((m.u64? fd.name).getD 0).toNat
  | .int32 => some ((m.i32? fd.name).getD 0).toInt
  | .uint32 => some ((m.u32? fd.name).getD 0).toNat
  | _ => none

/-- The integers that a numeric field can hold. -/
def Holds : FieldType → ℤ → Prop
  | .uint64, n => 0 ≤ n ∧ n < 2 ^ 64
  | .int32, n => -2 ^ 31 ≤ n ∧ n < 2 ^ 31
  | .uint32, n => 0 ≤ n ∧ n < 2 ^ 32
  | _, _ => False

/-- What an operator computes from the target and the source, on integers. -/
def integerResult : OperatorType → ℤ → ℤ → ℤ
  | .add, x, y => x + y
  | .sub, x, y => x - y
  | .overwrite, _, y => y

/-! ### Widening and narrowing -/

/-- The 64-bit pattern of an integer, as a number. -/
def widen (n : ℤ) : ℤ := if n < 0 then n + 2 ^ 64 else n

/-- The cast of an `int32_t` to `uint64_t` extends the sign. -/
theorem widen_int32 (v : Int32) : (v.toInt64.toUInt64.toNat : ℤ) = widen v.toInt := by
  have hlo := v.le_toInt
  have hhi := v.toInt_lt
  have h64 : v.toInt64.toInt = v.toInt := Int32.toInt_toInt64 v
  have hbits : v.toInt64.toInt = (v.toInt64.toUInt64.toNat : ℤ).bmod (2 ^ 64) := by
    rw [← Int64.toInt_toBitVec, BitVec.toInt_eq_toNat_bmod]
    rfl
  rw [Int.bmod_def] at hbits
  have := v.toInt64.toUInt64.toNat_lt
  unfold widen
  split <;> split at hbits <;> omega

/-- The cast of a `uint64_t` to `int32_t` keeps the low bits. -/
theorem narrow_int32 (v : UInt64) : v.toUInt32.toInt32.toInt = (v.toNat : ℤ).bmod (2 ^ 32) := by
  rw [← Int32.toInt_toBitVec, BitVec.toInt_eq_toNat_bmod]
  show ((v.toUInt32.toNat : ℕ) : ℤ).bmod (2 ^ 32) = _
  rw [UInt64.toNat_toUInt32, Int.natCast_emod]
  exact Int.emod_bmod _ _

section Fields

variable {m : Msg} {fd : FieldDescriptor}

/-- A field holds an integer that its type can hold, and is read as the pattern of it. -/
theorem intValue_spec {n : ℤ} (h : intValue m fd = some n) :
    Holds fd.type n ∧ ∃ v, numericValue m fd = some v ∧ (v.toNat : ℤ) = widen n := by
  unfold intValue at h
  unfold numericValue
  cases htype : fd.type <;> rw [htype] at h <;> cases h
  case uint64 =>
    have := ((m.u64? fd.name).getD 0).toNat_lt
    exact ⟨⟨by omega, by omega⟩, _, rfl, by rw [widen, if_neg (by omega)]⟩
  case uint32 =>
    have := ((m.u32? fd.name).getD 0).toNat_lt
    refine ⟨⟨by omega, by omega⟩, _, rfl, ?_⟩
    rw [widen, if_neg (by omega), UInt32.toNat_toUInt64]
  case int32 =>
    have hlo := ((m.i32? fd.name).getD 0).le_toInt
    have hhi := ((m.i32? fd.name).getD 0).toInt_lt
    exact ⟨⟨hlo, hhi⟩, _, rfl, widen_int32 _⟩

/-- Every numeric field is between the least signed and the largest unsigned number. -/
theorem intValue_bounds {n : ℤ} (h : intValue m fd = some n) : -2 ^ 31 ≤ n ∧ n < 2 ^ 64 := by
  have hholds := (intValue_spec h).1
  cases htype : fd.type <;> rw [htype] at hholds <;> simp only [Holds] at hholds <;> omega

/-- The store of `process_link`, for a target of type `t`. -/
def narrow : FieldType → ℤ → ℤ
  | .int32, n => n.bmod (2 ^ 32)
  | _, n => n

/-- The last part of `process_link`, for a target that can take a value. -/
theorem applyLink_eq {fields : Descriptor} {link : Linkage} {prior cur : UInt64}
    (hfd : fields[link.curItemIx]? = some fd) (htype : isLinkable fd = true)
    (hcur : numericValue m fd = some cur) :
    (∃ e, combine link.operator cur prior = .error e ∧
      applyLink fields m link prior = .ok (.rejected e)) ∨
    ∃ newval m', combine link.operator cur prior = .ok newval ∧
      applyLink fields m link prior = .ok (.linked m' prior) ∧
      intValue m' fd = some (narrow fd.type newval.toNat) := by
  have hle : ¬ fields.length < link.curItemIx := by
    have := (List.getElem?_eq_some_iff.mp hfd).1
    omega
  unfold applyLink
  rw [if_neg hle, hfd]
  simp only [hcur]
  cases hcombine : combine link.operator cur prior with
  | error e => exact .inl ⟨e, rfl, rfl⟩
  | ok newval =>
    refine .inr ⟨newval, ?_⟩
    have hcases : fd.type = .uint64 ∨ fd.type = .int32 := by
      simpa [isLinkable] using htype
    unfold intValue
    rcases hcases with hfdt | hfdt <;> rw [hfdt]
    · exact ⟨_, rfl, rfl, by simp [Msg.u64?, narrow]⟩
    · refine ⟨_, rfl, rfl, ?_⟩
      simp only [Msg.i32?, Msg.set_val_self, Option.getD_some]
      rw [narrow_int32]
      rfl

end Fields

/-! ### Exact or rejected -/

/-- The request after a link: one that is rejected has not been touched. -/
def LinkOutcome.requestAfter (m : Msg) : LinkOutcome → Msg
  | .linked m' _ => m'
  | .rejected _ => m

/-- A link that is taken leaves exactly the integer in the target field; where that integer
    is negative after a subtraction, or does not fit the field, the link is rejected and the
    field is as it was. -/
structure ExactOrRejected (op : OperatorType) (fd : FieldDescriptor) (m : Msg) (x y : ℤ)
    (result : Except Fault (LinkState × LinkOutcome)) : Prop where
  exact : ∀ l m' v, result = .ok (l, .linked m' v) →
    intValue m' fd = some (integerResult op x y)
  rejected : (op = .sub ∧ integerResult op x y < 0) ∨ ¬ Holds fd.type (integerResult op x y) →
    ∃ l e, result = .ok (l, .rejected e) ∧
      intValue ((LinkOutcome.rejected e).requestAfter m) fd = some x

/-- The targets `x`, of type `t`, and sources `y` for which the arithmetic is exact. -/
def ExactRange : OperatorType → FieldType → ℤ → ℤ → Prop
  | .add, t, x, y => Holds t (x + y)
  | .overwrite, t, _, y => Holds t y
  -- the comparison of the widened numbers takes a negative one for a large one
  | .sub, _, x, y => (0 ≤ x → x - y < 2 ^ 64) ∧ (x < 0 → 0 ≤ y → x + 2 ^ 64 < y)

/-- The computation on 64 bits: either it fails, or the result has one pattern. -/
theorem combine_cases (op : OperatorType) (cur prior : UInt64) :
    (op = .sub ∧ cur.toNat < prior.toNat ∧ combine op cur prior = .error 26) ∨
    ∃ newval, combine op cur prior = .ok newval ∧ (newval.toNat : ℤ) =
      integerResult op cur.toNat prior.toNat % 2 ^ 64 ∧
      (op = .sub → prior.toNat ≤ cur.toNat) := by
  have hcur := cur.toNat_lt
  have hprior := prior.toNat_lt
  cases op with
  | add =>
    refine .inr ⟨cur + prior, rfl, ?_, fun h => by cases h⟩
    rw [UInt64.toNat_add]
    simp [integerResult]
  | sub =>
    unfold combine
    by_cases hlt : cur < prior
    · exact .inl ⟨rfl, UInt64.lt_iff_toNat_lt.mp hlt, if_pos hlt⟩
    · have hle : prior ≤ cur := UInt64.not_lt.mp hlt
      have hle' : prior.toNat ≤ cur.toNat := UInt64.le_iff_toNat_le.mp hle
      refine .inr ⟨cur - prior, if_neg hlt, ?_, fun _ => hle'⟩
      rw [UInt64.toNat_sub_of_le _ _ hle]
      simp only [integerResult]
      omega
  | overwrite =>
    refine .inr ⟨prior, rfl, ?_, fun h => by cases h⟩
    simp only [integerResult]
    omega

/-- What is stored is the integer, and it is not negative after a subtraction, exactly for
    the numbers in range. -/
theorem narrow_eq_iff {op : OperatorType} {t : FieldType} (ht : t = .uint64 ∨ t = .int32)
    {x y newval : ℤ} (hx : Holds t x) (hy : -2 ^ 31 ≤ y ∧ y < 2 ^ 64)
    (hnew : newval = integerResult op (widen x) (widen y) % 2 ^ 64)
    (hsub : op = .sub → widen y ≤ widen x) :
    (narrow t newval = integerResult op x y ∧ (op = .sub → 0 ≤ integerResult op x y)) ↔
      ExactRange op t x y := by
  subst hnew
  unfold widen at *
  -- with the signs fixed, each case is linear arithmetic modulo 2^64 and 2^32
  rcases ht with rfl | rfl <;> cases op <;>
    simp only [narrow, integerResult, ExactRange, Holds, reduceCtorEq, false_implies, and_true,
      true_implies, Int.bmod_def] at *
  all_goals
    split_ifs at * <;> omega

/-- A subtraction whose widened target is the smaller number is in range. -/
theorem exactRange_of_widen_lt {t : FieldType} {x y : ℤ} (h : widen x < widen y) :
    ExactRange .sub t x y := by
  unfold widen at h
  constructor
  · intro hx
    split_ifs at h <;> omega
  · intro hx hy
    split_ifs at h <;> omega

/-- A link that is rejected is never wrong. -/
theorem exactOrRejected_rejected {op : OperatorType} {fd : FieldDescriptor} {m : Msg} {x y : ℤ}
    {l : LinkState} {e : ℕ} (hx : intValue m fd = some x) :
    ExactOrRejected op fd m x y (.ok (l, .rejected e)) := by
  refine ⟨fun _ _ _ h => ?_, fun _ => ⟨l, e, rfl, hx⟩⟩
  cases h

/-- A link that is taken is right if it stores the integer, and this is not negative after a
    subtraction. -/
theorem exactOrRejected_linked {op : OperatorType} {fd : FieldDescriptor} {m m' : Msg}
    {x y stored : ℤ} {l : LinkState} {v : UInt64} (hstored : intValue m' fd = some stored) :
    ExactOrRejected op fd m x y (.ok (l, .linked m' v)) ↔
      stored = integerResult op x y ∧ (op = .sub → 0 ≤ integerResult op x y) := by
  constructor
  · rintro ⟨hexact, hrejected⟩
    have hstore := hexact l m' v rfl
    rw [hstored] at hstore
    refine ⟨Option.some.inj hstore, fun hop => ?_⟩
    -- a negative difference would have to be rejected
    by_contra hneg
    obtain ⟨l₁, e, hrej, -⟩ := hrejected (.inl ⟨hop, not_le.mp hneg⟩)
    cases hrej
  · rintro ⟨hval, hnonneg⟩
    refine ⟨fun l₁ m₁ v h => ?_, fun hbad => ?_⟩
    · cases h
      rw [hstored, hval]
    · exfalso
      rcases hbad with ⟨hop, hneg⟩ | hfit
      · exact absurd (hnonneg hop) (not_le.mpr hneg)
      · -- what is stored fits
        have hfits := (intValue_spec hstored).1
        rw [hval] at hfits
        exact hfit hfits

/-- **When link arithmetic is exact or rejected.** A link into a 64-bit or a signed 32-bit
    target that holds `x`, whose source is a numeric field that holds `y`, is exact or
    rejected exactly for the numbers in range. -/
theorem exactOrRejected_iff {fields : Descriptor} {m item : Msg} {link : Linkage}
    {index t : ℕ} {msgIn out : VMIMessage} {l l' : LinkState} {fd fdSrc : FieldDescriptor}
    {x y : ℤ} {prior : UInt64} (hguard : l.nthType < l.msgno)
    (ht : msgIn.type[link.prevMsgIx]? = some t)
    (hprior : priorResult link (t + 1) index out l = .ok (l', .ok prior))
    (hsrc : numericValue item fdSrc = some prior) (hy : intValue item fdSrc = some y)
    (hfd : fields[link.curItemIx]? = some fd) (htype : isLinkable fd = true)
    (hx : intValue m fd = some x) :
    ExactOrRejected link.operator fd m x y (processLink fields m link index msgIn out l) ↔
      ExactRange link.operator fd.type x y := by
  obtain ⟨hxHolds, cur, hcur, hcurN⟩ := intValue_spec hx
  obtain ⟨-, prior', hprior', hpriorN⟩ := intValue_spec hy
  rw [hsrc] at hprior'
  cases hprior'
  have htype' : fd.type = .uint64 ∨ fd.type = .int32 := by
    simpa [isLinkable] using htype
  -- past the guards the outcome is that of the last part
  rw [processLink_of_prior hguard ht hprior]
  have hcombined := combine_cases link.operator cur prior
  rcases applyLink_eq (m := m) hfd htype hcur with ⟨e, hcombine, happly⟩ |
    ⟨newval, m', hcombine, happly, hstored⟩
  · rw [happly]
    rw [hcombine] at hcombined
    rcases hcombined with ⟨hop, hlt, -⟩ | ⟨newval, hok, -⟩
    · have hrange : ExactRange link.operator fd.type x y := by
        rw [hop]
        exact exactRange_of_widen_lt (by omega)
      exact ⟨fun _ => hrange, fun _ => exactOrRejected_rejected hx⟩
    · cases hok
  · rw [happly]
    rw [hcombine] at hcombined
    rcases hcombined with ⟨-, -, herr⟩ | ⟨newval', hok, hval, hle⟩
    · cases herr
    · cases hok
      rw [hcurN, hpriorN] at hval
      rw [← narrow_eq_iff htype' hxHolds (intValue_bounds hy) hval
        fun hop => by have := hle hop; omega]
      exact exactOrRejected_linked hstored

/-- An address read with the result `2 ^ 32`, then a byte read. -/
def readThen (m : Msg) : VMIMessage :=
  (VMIMessage.empty.addCall (.readAddr .va) (readAt 0x100000000)).addCall (.readNum .w8 .va) m

/-- A byte read at `vaddr` of process `pid`, with a link. -/
def linkedReadAt (vaddr : UInt64) (pid : Int32) (link : Linkage) : Msg :=
  ((Msg.empty.set .vaddr (.u64 vaddr)).set .pid (.i32 pid)).set .link (.link link)

/-- The link that `readThen` comes to is not exact or rejected. -/
def Inexact (m : Msg) (link : Linkage) (fd : FieldDescriptor) (x stored : ℤ) : Prop :=
  ∃ l w out l' m', Reaches echoEnv (readThen m) (World.initial ()) 1 l w out ∧ out.error = none ∧
    processLink (Call.readNum .w8 .va).requestFields m link 0 (readThen m) out l =
      .ok (l', .linked m' 0x100000000) ∧
    intValue m fd = some x ∧ intValue m' fd = some stored ∧
    ¬ ExactOrRejected link.operator fd m x (2 ^ 32)
      (processLink (Call.readNum .w8 .va).requestFields m link 0 (readThen m) out l)

/-- A read of the highest address, with an addition. -/
def wrapping : Msg := linkedReadAt 0xffffffffffffffff 0 {}

/-- The address of a byte read. -/
def vaddrField : FieldDescriptor := ⟨.vaddr, 1, .uint64⟩

/-- The process of a byte read. -/
def pidField : FieldDescriptor := ⟨.pid, 2, .int32⟩

/-- An addition wraps around, a subtraction from a negative number is taken, and a number
    that is too large is cut off. -/
theorem exactOrRejected_fails :
    Inexact wrapping {} vaddrField (2 ^ 64 - 1) (2 ^ 32 - 1) ∧
    Inexact (linkedReadAt 0 (-3) ⟨0, 0, 1, .sub⟩) ⟨0, 0, 1, .sub⟩ pidField (-3) (-3) ∧
    Inexact (linkedReadAt 0 7 ⟨0, 0, 1, .overwrite⟩) ⟨0, 0, 1, .overwrite⟩ pidField 7 0 := by
  refine ⟨⟨_, _, _, _, _, .next .start rfl rfl rfl, rfl, rfl, rfl, rfl, ?_⟩,
    ⟨_, _, _, _, _, .next .start rfl rfl rfl, rfl, rfl, rfl, rfl, ?_⟩,
    ⟨_, _, _, _, _, .next .start rfl rfl rfl, rfl, rfl, rfl, rfl, ?_⟩⟩
  all_goals
    rintro ⟨hexact, -⟩
    have h := hexact _ _ _ rfl
    revert h
    decide

/-- The condition at the first of these links. -/
theorem exactOrRejected_iff_wrapping : ∃ l w out,
    Reaches echoEnv (readThen wrapping) (World.initial ()) 1 l w out ∧
    (ExactOrRejected (Linkage.operator {}) vaddrField wrapping (2 ^ 64 - 1) (2 ^ 32)
        (processLink (Call.readNum .w8 .va).requestFields wrapping {} 0 (readThen wrapping) out
          l) ↔
      ExactRange (Linkage.operator {}) vaddrField.type (2 ^ 64 - 1) (2 ^ 32)) := by
  have hreach : Reaches echoEnv (readThen wrapping) (World.initial ()) 1 _ _ _ :=
    .next .start rfl rfl rfl
  have hy : intValue (Msg.empty.set .result (.u64 0x100000000)) ⟨.result, 1, .uint64⟩ =
      some (2 ^ 32) := rfl
  exact ⟨_, _, _, hreach,
    exactOrRejected_iff (Nat.zero_lt_one : 0 < 1) rfl rfl rfl hy rfl rfl rfl⟩

end Furnace.Vmi
