import Furnace.Lib.Utf8

namespace Furnace.Fac

open Furnace.Lib Furnace.Lib.PyText

/-!
# Facilities messages

`facilities.proto`, as the Python side reads and writes it, and the exceptions that get in
the way.

* `PyStr` — what reading a string field gives: text, or the bytes as they are when they are
  not UTF-8.
* `FacMessage` — the type list and the six lists of sub-messages.
* `FacMessage.pop` — `getattr(msg, t.lower()).pop(0)`.
-/

/-- Raw bytes: packets, socket identities, file contents. -/
abbrev Bytes := List UInt8

/-- The exceptions that the facilities runtime can raise. -/
inductive PyError
  | indexError | keyError | attributeError | valueError | unicodeDecodeError | osError | decodeError
  deriving DecidableEq, Repr

/-! ### String fields -/

/-- A string field as Python reads it.  Bytes are left undecoded only when they are not
    UTF-8. -/
inductive PyStr
  | str (s : Str)
  | bytes (b : {b : Bytes // Utf8.decode b = none})
  deriving DecidableEq

/-- A hexadecimal digit. -/
def hexDigit (n : ℕ) : Char := Char.ofNat (if n < 10 then 48 + n else 87 + n)

/-- One byte in `repr` of a bytes object that is quoted with `quote`. -/
def reprByte (quote : Char) (b : UInt8) : Str :=
  let c := Char.ofNat b.toNat
  if c = quote ∨ c = '\\' then ['\\', c]
  else if c = '\t' then ['\\', 't']
  else if c = '\n' then ['\\', 'n']
  else if c = '\r' then ['\\', 'r']
  else if 0x20 ≤ b ∧ b < 0x7f then [c]
  else ['\\', 'x', hexDigit (b.toNat / 16), hexDigit (b.toNat % 16)]

/-- `repr(b)`: double quotes stand around bytes that hold single quotes only. -/
def bytesRepr (b : Bytes) : Str :=
  let quote := if 39 ∈ b ∧ 34 ∉ b then '"' else '\''
  'b' :: quote :: b.flatMap (reprByte quote) ++ [quote]

/-- `str(x)` of a string field. -/
def PyStr.toStr : PyStr → Str
  | .str s => s
  | .bytes b => bytesRepr b.1

/-- `field = x` for a string field: bytes that are not UTF-8 are refused. -/
def PyStr.assign : PyStr → Except PyError Str
  | .str s => .ok s
  | .bytes _ => .error .valueError

theorem PyStr.assign_eq_ok {x : PyStr} {s : Str} : x.assign = .ok s ↔ x = .str s := by
  cases x <;> simp [PyStr.assign]

/-- `b.encode()` on a bytes object, which has no such method. -/
def bytesEncode (_ : Bytes) : Except PyError Bytes := .error .attributeError

/-! ### Messages -/

/-- `FacMessage.Type`. -/
inductive FacType
  | get | set | beMsg | getRet | setRet | beMsgRet
  deriving DecidableEq, Repr

structure GetMsg where
  key : PyStr := .str []
  deriving DecidableEq

structure SetMsg where
  key : PyStr := .str []
  value : PyStr := .str []
  deriving DecidableEq

structure BeMsg where
  status : ℕ := 0
  value : PyStr := .str []
  deriving DecidableEq

structure GetRet where
  key : PyStr := .str []
  value : PyStr := .str []
  result : ℕ := 0
  deriving DecidableEq

/-- A `Set_ret` has no field for the value. -/
structure SetRet where
  key : PyStr := .str []
  result : ℕ := 0
  deriving DecidableEq

structure BeMsgRet where
  status : ℕ := 0
  value : PyStr := .str []
  deriving DecidableEq

/-- A `FacMessage`. -/
structure FacMessage where
  type : List FacType := []
  get : List GetMsg := []
  set : List SetMsg := []
  beMsg : List BeMsg := []
  getRet : List GetRet := []
  setRet : List SetRet := []
  beMsgRet : List BeMsgRet := []
  deriving DecidableEq

namespace FacMessage

/-- Append a `GET_RET`. -/
def addGetRet (M : FacMessage) (r : GetRet) : FacMessage :=
  { M with type := M.type ++ [.getRet], getRet := M.getRet ++ [r] }

/-- Append a `SET_RET`. -/
def addSetRet (M : FacMessage) (r : SetRet) : FacMessage :=
  { M with type := M.type ++ [.setRet], setRet := M.setRet ++ [r] }

/-- A message of one `BE_MSG`. -/
def ofBeMsg (m : BeMsg) : FacMessage := { type := [.beMsg], beMsg := [m] }

/-- A message of one `BE_MSG_RET`. -/
def ofBeMsgRet (m : BeMsgRet) : FacMessage := { type := [.beMsgRet], beMsgRet := [m] }

end FacMessage

/-! ### Requests -/

/-- A sub-message that a type entry of a message from the app can stand for. -/
inductive Request
  | get (m : GetMsg) | set (m : SetMsg) | beMsg (m : BeMsg)
  | getRet (m : GetRet) | setRet (m : SetRet) | beMsgRet (m : BeMsgRet)
  deriving DecidableEq

/-- The first sub-message of a list, which must exist, and the list without it. -/
def popFrom {α : Type} (xs : List α) : Except PyError (α × List α) :=
  match xs with
  | [] => .error .indexError
  | x :: xs => .ok (x, xs)

theorem popFrom_eq_ok {α : Type} {xs ys : List α} {x : α} :
    popFrom xs = .ok (x, ys) ↔ xs = x :: ys := by
  cases xs <;> simp [popFrom]

/-- `getattr(msg, t.lower()).pop(0)`. -/
def FacMessage.pop (M : FacMessage) (t : FacType) : Except PyError (Request × FacMessage) :=
  match t with
  | .get => (popFrom M.get).map fun r => (.get r.1, { M with get := r.2 })
  | .set => (popFrom M.set).map fun r => (.set r.1, { M with set := r.2 })
  | .beMsg => (popFrom M.beMsg).map fun r => (.beMsg r.1, { M with beMsg := r.2 })
  | .getRet => (popFrom M.getRet).map fun r => (.getRet r.1, { M with getRet := r.2 })
  | .setRet => (popFrom M.setRet).map fun r => (.setRet r.1, { M with setRet := r.2 })
  | .beMsgRet => (popFrom M.beMsgRet).map fun r => (.beMsgRet r.1, { M with beMsgRet := r.2 })

/-- The sub-messages that the type entries `ts` stand for, up to the first entry without
    one; whether there is such an entry. -/
def FacMessage.requests : List FacType → FacMessage → List Request × Bool
  | [], _ => ([], false)
  | t :: ts, M =>
    match M.pop t with
    | .error _ => ([], true)
    | .ok (r, M) => (r :: (requests ts M).1, (requests ts M).2)

/-- A type entry without a sub-message is an `IndexError`. -/
theorem FacMessage.pop_error {M : FacMessage} {t : FacType} {e : PyError} (h : M.pop t = .error e) :
    e = .indexError := by
  have hpop : ∀ {α β : Type} {xs : List α} {f : α × List α → β},
      (popFrom xs).map f = .error e → e = .indexError := by
    intro α β xs f hf
    cases xs with
    | nil =>
      cases hf
      rfl
    | cons x xs => cases hf
  cases t <;> exact hpop h

end Furnace.Fac
