import Mathlib.Tactic.IntervalCases
import Furnace.Vmi.Dispatch

namespace Furnace.Proto.VMIMessage

open Furnace.Lib

/-!
# A batch and its calls sent one at a time

A message without links is compared with the messages that hold its calls one by one.  No
handler sees more of the message than its own request, and none sees what the others have
replied; so the only thing that a batch shares between its calls is the state of the VMI
partition, which it shares with the single messages too.

* `VMIMessage.single` — the message that holds one call of a batch.
* `sequential` — messages sent in order, until a reply carries the error flag; the replies
  are merged.
* `record_eq_merge` — recording a reply is merging the message that holds that reply only.
-/

/-! ### Messages of one call -/

/-- The call at position `i` of a message, of the type `t`, in a message of its own: its
    request, if the field is repeated, and the one request of the type if it is not. -/
def single (msgIn : VMIMessage) (i t : ℕ) : VMIMessage where
  sub n :=
    if n ≠ t then []
    else if isRepeated t then ((msgIn.sub t)[countBefore t msgIn.type i]?).toList
    else msgIn.sub t
  type := [t]

/-- The calls of a message, in order, each in a message of its own. -/
def singles (msgIn : VMIMessage) : List VMIMessage := msgIn.type.mapIdx msgIn.single

/-- **The same request.** The handler of a call reads from the single message what it reads
    from the batch, a missing request included. -/
theorem request_single (msgIn : VMIMessage) (i : ℕ) (c : Call) :
    (msgIn.single i c.num).request c 0 =
      msgIn.request c (countBefore c.num msgIn.type i) := by
  unfold request single
  by_cases hrep : isRepeated c.num = true
  · simp only [hrep, if_true, ne_eq, not_true_eq_false, if_false]
    cases (msgIn.sub c.num)[countBefore c.num msgIn.type i]? with
    | none => rfl
    | some m => rfl
  · simp [hrep]

/-- Everything but the location of the error. -/
def forgetLoc (M : VMIMessage) : VMIMessage := { M with errorLoc := none }

theorem mergeList_nil (n : ℕ) (as : List Msg) : mergeList n as [] = as := by
  unfold mergeList
  split
  · exact List.append_nil as
  · rfl

/-- Putting a sub-message into a field is merging the field that holds it alone. -/
theorem mergeList_putList_nil (n : ℕ) (as : List Msg) (m : Msg) :
    mergeList n as (putList n [] m) = putList n as m := by
  unfold mergeList putList
  by_cases hrep : isRepeated n = true
  · simp [hrep]
  · simp [hrep]

end Furnace.Proto.VMIMessage

namespace Furnace.Vmi

open Furnace.Proto Furnace.Lib

variable {G : Type}

/-! ### Sending messages in order -/

/-- Send messages until a reply carries the error flag, and merge the replies into `acc`. -/
def sequential (env : Env G) : List VMIMessage → World G → VMIMessage →
    Except Fault (World G × VMIMessage)
  | [], w, acc => .ok (w, acc)
  | msgIn :: rest, w, acc => do
    let (w, out) ← processProtobuf env msgIn w
    if out.error.isSome then .ok (w, acc.merge out)
    else sequential env rest w (acc.merge out)

/-- No call of the message has a link in its request. -/
def Unlinked (msgIn : VMIMessage) : Prop :=
  ∀ i (c : Call), msgIn.type[i]? = some c.num →
    ∀ m, msgIn.request c (countBefore c.num msgIn.type i) = .ok m → m.link? = none

/-- A state and a reply, up to the location of the error. -/
def upToLoc (r : World G × VMIMessage) : World G × VMIMessage := (r.1, r.2.forgetLoc)

/-! ### One call -/

/-- **Recording is merging.** Up to the location of the error, a reply is recorded in
    `msg_out` as if it had been recorded in an empty message and merged. -/
theorem record_eq_merge (out : VMIMessage) (n : ℕ) (r : Reply) (loc loc' : ℕ) :
    (record out n r loc).forgetLoc = (out.merge (record VMIMessage.empty n r loc')).forgetLoc := by
  -- only the reply field differs from the earlier reply, on both sides
  have hsub : (record out n r loc).sub = (out.merge (record VMIMessage.empty n r loc')).sub := by
    funext k
    show _ = VMIMessage.mergeList k (out.sub k) ((record VMIMessage.empty n r loc').sub k)
    rw [record_sub, record_sub]
    cases r.entry with
    | none => exact (VMIMessage.mergeList_nil k _).symm
    | some m =>
      by_cases hk : k = n
      · subst hk
        simp [VMIMessage.mergeList_putList_nil]
      · simp [hk, VMIMessage.mergeList_nil]
  have htype : (record out n r loc).type =
      (out.merge (record VMIMessage.empty n r loc')).type := by
    show _ = out.type ++ (record VMIMessage.empty n r loc').type
    rw [record_type, record_type]
    simp
  have herror : (record out n r loc).error =
      (out.merge (record VMIMessage.empty n r loc')).error := by
    show _ = (record VMIMessage.empty n r loc').error.or out.error
    rw [record_error, record_error]
    cases r.errorNum with
    | none => rfl
    | some e => rfl
  have herrorNum : (record out n r loc).errorNum =
      (out.merge (record VMIMessage.empty n r loc')).errorNum := by
    show _ = (record VMIMessage.empty n r loc').errorNum.or out.errorNum
    rw [record_errorNum, record_errorNum]
    cases r.errorNum with
    | none => rfl
    | some e => rfl
  exact VMIMessage.ext hsub htype herror herrorNum rfl

/-- A single message is one call of `process_single`, the first of its type. -/
theorem processProtobuf_single (env : Env G) (msgIn : VMIMessage) (i t : ℕ) (w : World G) :
    processProtobuf env (msgIn.single i t) w =
      (processSingle env t 0 (msgIn.single i t) VMIMessage.empty {} w).map (·.2) := by
  show (processSingle env t 0 (msgIn.single i t) VMIMessage.empty {} w >>= _) >>= _ = _
  cases processSingle env t 0 (msgIn.single i t) VMIMessage.empty {} w with
  | error e => rfl
  | ok r => rfl

/-- **One call, in the batch and on its own.** The link state stays; the state after the
    call, the reply merged into the earlier ones and a fault, if any, are the same. -/
theorem processSingle_unlinked (env : Env G) {msgIn : VMIMessage} (hun : Unlinked msgIn) {i t : ℕ}
    (ht : msgIn.type[i]? = some t) (out : VMIMessage) (l : LinkState) (w : World G) :
    (processSingle env t (countBefore t msgIn.type i) msgIn out l w).map
        (fun r => (r.1, upToLoc r.2)) =
      (processProtobuf env (msgIn.single i t) w).map
        (fun r => (l, upToLoc (r.1, out.merge r.2))) := by
  rw [processProtobuf_single]
  unfold processSingle
  cases hc : Call.ofNum? t with
  | none =>
    -- the `default` of the `switch`: the same three scalars, whatever the index
    have hreply : VMIMessage.forgetLoc { out with error := some true, errorNum := some t } =
        VMIMessage.forgetLoc
          (out.merge { VMIMessage.empty with error := some true, errorNum := some t }) := by
      apply VMIMessage.ext
      · funext k
        exact (VMIMessage.mergeList_nil k _).symm
      · exact (List.append_nil out.type).symm
      · rfl
      · rfl
      · rfl
    exact congrArg (fun m => Except.ok (l, w, m)) hreply
  | some c =>
    have hnum : c.num = t := Call.num_of_ofNum? hc
    subst hnum
    have hreq := VMIMessage.request_single msgIn i c
    have hlink := hun i c ht
    simp only
    -- without a link neither handler looks at the message, at the reply or at the link state
    rw [Handler.run_unlinked _ c env _ msgIn out l w hlink,
      Handler.run_unlinked _ c env 0 (msgIn.single i c.num) VMIMessage.empty {} w
        (by rw [hreq]; exact hlink), hreq]
    cases (handlerOf c).core env (msgIn.request c (countBefore c.num msgIn.type i)) w with
    | error e => rfl
    | ok r =>
      have hreply := record_eq_merge out c.replyNum r.2 (countBefore c.num msgIn.type i) 0
      exact congrArg (fun m => Except.ok (l, r.1, m)) hreply

/-! ### Whole messages -/

/-- What is merged into a reply does not depend on where its error was. -/
theorem forgetLoc_merge {acc out : VMIMessage} (h : acc.forgetLoc = out.forgetLoc)
    (r : VMIMessage) : (acc.merge r).forgetLoc = (out.merge r).forgetLoc := by
  show (acc.forgetLoc.merge r).forgetLoc = (out.forgetLoc.merge r).forgetLoc
  rw [h]

theorem singles_getElem? {msgIn : VMIMessage} {i t : ℕ} (ht : msgIn.type[i]? = some t) :
    msgIn.singles[i]? = some (msgIn.single i t) := by
  simp [VMIMessage.singles, List.getElem?_mapIdx, ht]

/-- After an error no call is made. -/
theorem processTypes_error {env : Env G} {msgIn : VMIMessage} {ts : List ℕ}
    {typecount : ℕ → Option ℕ} {l : LinkState} {w : World G} {out : VMIMessage}
    (h : out.error.isSome = true) :
    processTypes env msgIn ts typecount l w out = .ok (l, w, out) := by
  cases ts with
  | nil => rfl
  | cons t ts => rw [processTypes, if_pos h]

/-- From any position on, the rest of the batch equals the rest of the single messages. -/
theorem processTypes_unlinked {env : Env G} {msgIn : VMIMessage} (hun : Unlinked msgIn) {i : ℕ}
    {out acc : VMIMessage} (hout : out.error = none) (hacc : acc.forgetLoc = out.forgetLoc)
    (l : LinkState) (w : World G) :
    (processTypes env msgIn (msgIn.type.drop i) (countsAfter (msgIn.type.take i)) l w out).map
        (fun r => upToLoc r.2) =
      (sequential env (msgIn.singles.drop i) w acc).map upToLoc := by
  generalize hn : msgIn.type.length - i = n
  induction n generalizing i l w out acc with
  | zero =>
    have hlen : msgIn.singles.length = msgIn.type.length := by simp [VMIMessage.singles]
    rw [List.drop_eq_nil_of_le (by omega), List.drop_eq_nil_of_le (by omega)]
    exact congrArg (fun m => Except.ok (w, m)) hacc.symm
  | succ n ih =>
    have hlt : i < msgIn.type.length := by omega
    have ht : msgIn.type[i]? = some msgIn.type[i] := List.getElem?_eq_getElem hlt
    generalize msgIn.type[i] = t at ht
    obtain ⟨hlt', hget⟩ := List.getElem?_eq_some_iff.mp (singles_getElem? ht)
    rw [processTypes_step ht _ _ hout, List.drop_eq_getElem_cons hlt', hget, sequential]
    have hcall := processSingle_unlinked env hun ht out l w
    generalize processSingle env t (countBefore t msgIn.type i) msgIn out l w = batch at hcall ⊢
    generalize processProtobuf env (msgIn.single i t) w = single at hcall ⊢
    -- a fault or a reply, the same on both sides
    cases single with
    | error e =>
      cases batch with
      | error e' => exact congrArg Except.error (Except.error.inj hcall)
      | ok r => cases hcall
    | ok s =>
      cases batch with
      | error e' => cases hcall
      | ok r =>
        obtain ⟨l', w', out'⟩ := r
        obtain ⟨ws, outs⟩ := s
        obtain ⟨rfl, heq⟩ := Prod.mk.inj (Except.ok.inj hcall)
        obtain ⟨rfl, hreply⟩ := Prod.mk.inj heq
        have hacc' : (acc.merge outs).forgetLoc = out'.forgetLoc :=
          (forgetLoc_merge hacc outs).trans hreply.symm
        -- the flag of the batch is the flag of the single reply, since `out` had none
        have herr : out'.error = outs.error := by
          have : out'.error = outs.error.or out.error := congrArg VMIMessage.error hreply
          rw [this, hout, Option.or_none]
        show (processTypes env msgIn _ _ _ w' out').map _ =
          (if outs.error.isSome then .ok (w', acc.merge outs) else _ : Except Fault _).map upToLoc
        by_cases hflag : outs.error.isSome = true
        · rw [if_pos hflag, processTypes_error (by rw [herr]; exact hflag)]
          exact congrArg (fun m => Except.ok (w', m)) hacc'.symm
        · rw [if_neg hflag]
          -- both sides go on, from the same state and with the same reply so far
          have hnone : outs.error = none := by simpa using hflag
          exact ih (by rw [herr]; exact hnone) hacc' _ w' (by omega)

/-- **A batch without links equals its calls sent one at a time.** The state of the VMI
    partition, the merged reply up to the location of the error, and a fault if the VMI
    partition runs into one, are the same; the calls after the first error are not made. -/
theorem batch_eq_sequential (env : Env G) (msgIn : VMIMessage) (w : World G)
    (hlen : msgIn.type.length ≤ maxTypes) (hun : Unlinked msgIn) :
    (processProtobuf env msgIn w).map upToLoc =
      (sequential env msgIn.singles w VMIMessage.empty).map upToLoc := by
  have hcounts : countsAfter [] = fun _ => none := by
    funext t
    simp [countsAfter]
  have hrun : (processTypes env msgIn (msgIn.type.drop 0) (countsAfter (msgIn.type.take 0)) {} w
      VMIMessage.empty).map (fun r => upToLoc r.2) =
      (sequential env (msgIn.singles.drop 0) w VMIMessage.empty).map upToLoc :=
    processTypes_unlinked hun rfl rfl {} w
  rw [List.drop_zero, List.take_zero, hcounts, List.drop_zero] at hrun
  rw [← hrun]
  unfold processProtobuf
  rw [if_neg (by omega)]
  show (processTypes env msgIn msgIn.type _ {} w VMIMessage.empty >>= _).map upToLoc = _
  cases processTypes env msgIn msgIn.type (fun _ => none) {} w VMIMessage.empty with
  | error e => rfl
  | ok r => rfl

/-- The guest is paused, one of its bytes is read, and a type without a handler ends the
    batch before the guest would be resumed. -/
def pauseReadInvalid : VMIMessage :=
  (((VMIMessage.empty.addCall .pauseVm Msg.empty).addCall (.readNum .w8 .pa)
    (Msg.empty.set .paddr (.u64 8))).addType 3).addCall .resumeVm Msg.empty

theorem batch_eq_sequential_pause :
    (processProtobuf echoEnv pauseReadInvalid (World.initial ())).map upToLoc =
      (sequential echoEnv pauseReadInvalid.singles (World.initial ()) VMIMessage.empty).map
        upToLoc := by
  refine batch_eq_sequential echoEnv pauseReadInvalid _ (by decide) ?_
  intro i c ht m hm
  have hi : i < 4 := (List.getElem?_eq_some_iff.mp ht).1
  interval_cases i
  · have hc : c = .pauseVm := Call.num_injective (Option.some.inj ht).symm
    subst hc
    cases hm
    rfl
  · have hc : c = .readNum .w8 .pa := Call.num_injective (Option.some.inj ht).symm
    subst hc
    cases hm
    rfl
  -- the third type has no handler
  · have hnone : Call.ofNum? c.num = none := by
      rw [← Option.some.inj ht]
      decide
    rw [Call.ofNum?_num] at hnone
    cases hnone
  · have hc : c = .resumeVm := Call.num_injective (Option.some.inj ht).symm
    subst hc
    cases hm
    rfl

end Furnace.Vmi
