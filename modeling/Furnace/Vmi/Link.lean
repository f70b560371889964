import Furnace.Lib.Cursor
import Furnace.Vmi.State

namespace Furnace.Vmi

open Furnace.Proto Furnace.Lib

/-!
# Links between the calls of a batch

`process_link` combines a value from the reply of an earlier call into a field of the
current request.  It finds that reply by walking over the populated fields of `msg_out`
from the last one down: the type list first, to learn the reply type at the requested
position, then the reply fields, to dig into the one of that type.

The checks that protobuf's descriptors and reflection objects are not NULL are left out:
they never are.  So is the invalid operator: an unknown enumerator is not stored in an
`optional` enum field when a message is parsed.
-/

variable {G : Type}

/-- How a link ends: the request with the combined value, and the operand that went into
    it, or the number of the error that rejects the link. -/
inductive LinkOutcome
  | linked (m : Msg) (operand : UInt64)
  | rejected (errorNum : ℕ)

/-- The `switch (field->type())` that reads a field as an unsigned 64-bit number. -/
def numericValue (m : Msg) (fd : FieldDescriptor) : Option UInt64 :=
  match fd.type with
  | .uint64 => some ((m.u64? fd.name).getD 0)
  -- an `int32` is sign-extended by the cast
  | .int32 => some ((m.i32? fd.name).getD 0).toInt64.toUInt64
  | .uint32 => some ((m.u32? fd.name).getD 0).toUInt64
  | _ => none

/-! ### The search for the earlier reply -/

/-- The scan of the type list: the reply type at `prev_msg_ix`, and the new `nth_type`. -/
def findType (msgOut : VMIMessage) (p nthType : ℕ) : Except Fault (ℕ × ℕ) :=
  match msgOut.listFields.reverse with
  | [] => .ok (0, nthType)
  | n :: _ => do
    let fieldsz ← msgOut.fieldSize n
    if n = VMIMessage.typeField then
      -- the scan starts at `nth_type`: a position before it is never found
      match scanFrom (fun j => decide (p = j + 0)) nthType msgOut.type with
      | some (j, t) => .ok (t, j)
      | none => .ok (0, nthType)
    else if nthType < fieldsz then
      -- GetRepeatedEnumValue on a field of messages
      .error .wrongLabel
    else .ok (0, nthType)

/-- The checks made on the reply sub-message that the search stops at, and the value read. -/
def readTarget (n msgtype prevItemIx : ℕ) (item : Msg) : Except Fault (Except ℕ UInt64) :=
  -- the type found in `msg_out` is compared with the one inferred from `msg_in`
  if n ≠ msgtype then .ok (.error 17)
  else if (replyDescriptor n).length < prevItemIx then .ok (.error 18)
  -- an index equal to the number of fields passes the check
  else match (replyDescriptor n)[prevItemIx]? with
    | none => .error .outOfRange
    | some fd =>
      match numericValue item fd with
      | some v => .ok (.ok v)
      | none => .ok (.error 20)

/-- The walk over the reply fields `ns`, the first of which is at depth `d`: inside the
    field numbered `tgttype` it looks for the entry `j` with `index = j + d`. -/
def searchFields (prevItemIx index msgtype tgttype : ℕ) (msgOut : VMIMessage) :
    List ℕ → ℕ → UInt64 → ℕ → Except Fault (Except ℕ (UInt64 × ℕ))
  | [], _, prior, ix => .ok (.ok (prior, ix))
  | n :: ns, d, prior, ix => do
    -- the size is asked for before the field's number is compared
    let _ ← msgOut.fieldSize n
    if n = tgttype then
      match scanFrom (fun j => decide (index = j + d)) ix (msgOut.sub n) with
      | some (j, item) =>
        match ← readTarget n msgtype prevItemIx item with
        -- the `break` leaves the entries only: the walk goes on with the other fields
        | .ok v => searchFields prevItemIx index msgtype tgttype msgOut ns (d + 1) v j
        | .error e => .ok (.error e)
      | none => searchFields prevItemIx index msgtype tgttype msgOut ns (d + 1) prior ix
    else searchFields prevItemIx index msgtype tgttype msgOut ns (d + 1) prior ix

/-- `prior_result`: from the cache, or else searched for and then cached.  The type cursor
    moves before the search can fail. -/
def priorResult (link : Linkage) (msgtype index : ℕ) (msgOut : VMIMessage) (l : LinkState) :
    Except Fault (LinkState × Except ℕ UInt64) :=
  match l.cache link.prevMsgIx with
  | some v => .ok (l, .ok v)
  | none => do
    let (tgttype, nthType) ← findType msgOut link.prevMsgIx l.nthType
    let l := { l with nthType := nthType }
    match ← searchFields link.prevItemIx index msgtype tgttype msgOut
        msgOut.listFields.reverse.tail 0 0 l.nthFieldIx with
    | .error e => .ok (l, .error e)
    | .ok (prior, ix) =>
      .ok ({ l with nthFieldIx := ix,
                    cache := Function.update l.cache link.prevMsgIx (some prior) }, .ok prior)

/-! ### The current request -/

/-- The `switch (link->operator_())`. -/
def combine (op : OperatorType) (currentInput prior : UInt64) : Except ℕ UInt64 :=
  match op with
  | .add => .ok (currentInput + prior)
  -- only a subtraction is checked: an addition wraps around
  | .sub => if currentInput < prior then .error 26 else .ok (currentInput - prior)
  | .overwrite => .ok prior

/-- Read field `cur_item_ix` of the request `m`, combine it with `prior`, store the result. -/
def applyLink (fields : Descriptor) (m : Msg) (link : Linkage) (prior : UInt64) :
    Except Fault LinkOutcome :=
  if fields.length < link.curItemIx then .ok (.rejected 22)
  else match fields[link.curItemIx]? with
    | none => .error .outOfRange
    | some fd =>
      match numericValue m fd with
      | none => .ok (.rejected 25)
      | some currentInput =>
        match combine link.operator currentInput prior with
        | .error e => .ok (.rejected e)
        | .ok newval =>
          -- a `uint32` has been read above, but no case stores it
          match fd.type with
          | .uint64 => .ok (.linked (m.set fd.name (.u64 newval)) prior)
          | .int32 => .ok (.linked (m.set fd.name (.i32 newval.toUInt32.toInt32)) prior)
          | _ => .ok (.rejected 28)

/-- `process_link` for the request `m`, the `index`-th of its type, whose declaration is
    `fields`. -/
def processLink (fields : Descriptor) (m : Msg) (link : Linkage) (index : ℕ)
    (msgIn msgOut : VMIMessage) (l : LinkState) : Except Fault (LinkState × LinkOutcome) :=
  -- the guard against forward references looks at the cursor, not at `prev_msg_ix`
  if l.msgno ≤ l.nthType then .ok (l, .rejected 10)
  else if msgIn.type.length < link.prevMsgIx then .ok (l, .rejected 11)
  else match msgIn.type[link.prevMsgIx]? with
    | none => .error .outOfRange
    -- the reply type is inferred: the request type plus one
    | some t => do
      match ← priorResult link (t + 1) index msgOut l with
      | (l, .error e) => .ok (l, .rejected e)
      | (l, .ok prior) => do
        let outcome ← applyLink fields m link prior
        .ok (l, outcome)

end Furnace.Vmi
