import Furnace.Lib.Tagged
import Furnace.Vmi.Registry

namespace Furnace.Vmi

open Furnace.Proto Furnace.Lib

/-!
# Dispatch and batches

`process_single` hands a request to the handler of its type; `process_protobuf` runs over
the types of a message in order, keeps one counter per type, and stops after the first call
that sets the error flag.

* `handlerOf` — the `switch` of `process_single`.
* `processProtobuf` — a whole message.
* `Reaches env msgIn w₀ i l w out` — the loop arrives at position `i` of `msgIn` with the
  link state `l`, the world `w` and the partial reply `out`; `processTypes_of_reaches` and
  `reaches_of_processTypes` tie it to the loop.
-/

variable {G : Type}

/-- The handler of each call type. -/
def handlerOf : Call → Handler G
  | .translateKv2p => processTranslateKv2p
  | .translateUv2p => processTranslateUv2p
  | .translateKsym2v => processTranslateKsym2v
  | .readBuf .pa => processReadPa
  | .readBuf .va => processReadVa
  | .readBuf .ksym => processReadKsym
  | .readNum .w8 .pa => processRead8Pa
  | .readNum .w16 .pa => processRead16Pa
  | .readNum .w32 .pa => processRead32Pa
  | .readNum .w64 .pa => processRead64Pa
  | .readAddr .pa => processReadAddrPa
  | .readStr .pa => processReadStrPa
  | .readNum .w8 .va => processRead8Va
  | .readNum .w16 .va => processRead16Va
  | .readNum .w32 .va => processRead32Va
  | .readNum .w64 .va => processRead64Va
  | .readAddr .va => processReadAddrVa
  | .readStr .va => processReadStrVa
  | .readNum .w8 .ksym => processRead8Ksym
  | .readNum .w16 .ksym => processRead16Ksym
  | .readNum .w32 .ksym => processRead32Ksym
  | .readNum .w64 .ksym => processRead64Ksym
  | .readAddr .ksym => processReadAddrKsym
  | .readStr .ksym => processReadStrKsym
  | .writeBuf .pa => processWritePa
  | .writeBuf .va => processWriteVa
  | .writeBuf .ksym => processWriteKsym
  | .writeNum .w8 .pa => processWrite8Pa
  | .writeNum .w16 .pa => processWrite16Pa
  | .writeNum .w32 .pa => processWrite32Pa
  | .writeNum .w64 .pa => processWrite64Pa
  | .writeNum .w8 .va => processWrite8Va
  | .writeNum .w16 .va => processWrite16Va
  | .writeNum .w32 .va => processWrite32Va
  | .writeNum .w64 .va => processWrite64Va
  | .writeNum .w8 .ksym => processWrite8Ksym
  | .writeNum .w16 .ksym => processWrite16Ksym
  | .writeNum .w32 .ksym => processWrite32Ksym
  | .writeNum .w64 .ksym => processWrite64Ksym
  | .getName => processGetName
  | .getVmid => processGetVmid
  | .getAccessMode => processGetAccessMode
  | .getWinver => processGetWinver
  | .getWinverStr => processGetWinverStr
  | .getVcpureg => processGetVcpureg
  | .getMemsize => processGetMemsize
  | .getOffset => processGetOffset
  | .getOstype => processGetOstype
  | .getPageMode => processGetPageMode
  | .status => processStatus
  | .eventRegister => processEventRegister
  | .eventClear => processEventClear
  | .eventsStart => processEventsStart
  | .eventsStop => processEventsStop
  | .resumeVm => processResumeVm
  | .pauseVm => processPauseVm
  | .lookupSymbol => processLookupSymbol
  | .lookupStructure => processLookupStructure
  | .processList => processProcessList
  | .startSyscall => processStartSyscall
  | .stopSyscall => processStopSyscall

/-- Every handler gives complete replies. -/
theorem handlerOf_complete (c : Call) : (handlerOf c : Handler G).body.Complete := by
  cases c
  case readNum w s => cases w <;> cases s <;> exact readNumBody_complete _ _
  case writeNum w s => cases w <;> cases s <;> exact writeNumBody_complete _ _
  case readAddr s => cases s <;> exact readAddrBody_complete _
  case writeBuf s => cases s <;> exact writeBufBody_complete _
  -- `readKsym` has a body of its own, as has `readStrPa` below
  case readBuf s =>
    cases s
    · exact readBufBody_complete _
    · exact readBufBody_complete _
    · exact readKsymBody_complete
  case readStr s =>
    cases s
    · exact readStrPaBody_complete
    · exact readStrBody_complete _
    · exact readStrBody_complete _
  case translateKv2p | translateUv2p | translateKsym2v | getOffset =>
    exact translateBody_complete _
  case lookupSymbol | lookupStructure =>
    dsimp only [handlerOf, processLookupSymbol, processLookupStructure]
    exact lookupBody_complete _
  case getName | getWinverStr => exact stringBody_complete _
  case getVmid | getWinver | getMemsize =>
    dsimp only [handlerOf, processGetVmid, processGetWinver, processGetMemsize]
    exact numberBody_complete _
  case getAccessMode | getVcpureg | getOstype | getPageMode => exact notImplementedBody_complete
  case eventsStart | eventsStop => exact eventsBody_complete _
  case resumeVm | pauseVm => exact effectBody_complete _
  case processList => exact processListBody_complete
  case eventRegister => exact RegistryCall.eventRegister.handler_complete
  case eventClear => exact RegistryCall.eventClear.handler_complete
  case startSyscall => exact RegistryCall.startSyscall.handler_complete
  case stopSyscall => exact RegistryCall.stopSyscall.handler_complete
  case status =>
    intro env access w w' r h
    cases h
    exact Reply.ok_complete _

/-! ### One call -/

/-- `process_single`: an unknown type sets the error flag with the type as error number. -/
def processSingle (env : Env G) (t index : ℕ) (msgIn msgOut : VMIMessage) (l : LinkState)
    (w : World G) : Except Fault (LinkState × World G × VMIMessage) :=
  match Call.ofNum? t with
  | some c => do
    let (l, w, r) ← (handlerOf c).run c env index msgIn msgOut l w
    .ok (l, w, record msgOut c.replyNum r index)
  | none =>
    -- the default case: no reply at all, and a location beyond any index
    .ok (l, w, { msgOut with error := some true, errorNum := some t,
                             errorLoc := some (index + 10000) })

/-- What `process_single` does with a call it knows. -/
theorem processSingle_call {env : Env G} {c : Call} {index : ℕ} {msgIn msgOut out : VMIMessage}
    {l l' : LinkState} {w w' : World G}
    (h : processSingle env c.num index msgIn msgOut l w = .ok (l', w', out)) :
    ∃ r, (handlerOf c).run c env index msgIn msgOut l w = .ok (l', w', r) ∧
      out = record msgOut c.replyNum r index := by
  unfold processSingle at h
  rw [Call.ofNum?_num] at h
  obtain ⟨⟨l₁, w₁, r⟩, hr, h⟩ := bind_eq_ok.mp h
  cases h
  exact ⟨r, hr, rfl⟩

/-! ### The loop over a message -/

/-- `typecount[msg_type]`, after it was set or incremented. -/
def nextCount (typecount : ℕ → Option ℕ) (t : ℕ) : ℕ :=
  match typecount t with
  | none => 0
  | some n => n + 1

/-- The loop of `process_protobuf` over the types that are left. -/
def processTypes (env : Env G) (msgIn : VMIMessage) :
    List ℕ → (ℕ → Option ℕ) → LinkState → World G → VMIMessage →
      Except Fault (LinkState × World G × VMIMessage)
  | [], _, l, w, out => .ok (l, w, out)
  | t :: ts, typecount, l, w, out =>
    -- the counter moves before the error flag is looked at
    let n := nextCount typecount t
    if out.error.isSome then .ok (l, w, out)
    else do
      let (l, w, out) ← processSingle env t n msgIn out l w
      processTypes env msgIn ts (Function.update typecount t (some n))
        { l with msgno := l.msgno + 1 } w out

/-- The longest message that is processed. -/
def maxTypes : ℕ := 1000

/-- `process_protobuf`: the link state starts afresh with every message. -/
def processProtobuf (env : Env G) (msgIn : VMIMessage) (w : World G) :
    Except Fault (World G × VMIMessage) :=
  -- an empty reply, not an error
  if maxTypes < msgIn.type.length then .ok (w, VMIMessage.empty)
  else do
    let (_, w, out) ← processTypes env msgIn msgIn.type (fun _ => none) {} w VMIMessage.empty
    .ok (w, out)

/-- The counters after the types `ts`. -/
def countsAfter (ts : List ℕ) (t : ℕ) : Option ℕ :=
  if t ∈ ts then some (ts.count t - 1) else none

/-- The counter of a type is its number of earlier occurrences. -/
theorem nextCount_countsAfter (ts : List ℕ) (t : ℕ) :
    nextCount (countsAfter ts) t = ts.count t := by
  unfold nextCount countsAfter
  by_cases h : t ∈ ts
  · have hpos : 0 < ts.count t := List.count_pos_iff.mpr h
    simp only [if_pos h]
    omega
  · simp only [if_neg h]
    exact (List.count_eq_zero_of_not_mem h).symm

theorem countsAfter_append (ts : List ℕ) (t : ℕ) :
    Function.update (countsAfter ts) t (some (ts.count t)) = countsAfter (ts ++ [t]) := by
  funext k
  by_cases hk : k = t
  · subst hk
    simp [countsAfter]
  · have hk' : ¬ t = k := fun h => hk h.symm
    simp [countsAfter, hk, hk', List.count_append]

/-! ### Positions of the loop -/

/-- The loop over `msgIn` arrives at position `i` with this state. -/
inductive Reaches (env : Env G) (msgIn : VMIMessage) (w₀ : World G) :
    ℕ → LinkState → World G → VMIMessage → Prop
  | start : Reaches env msgIn w₀ 0 {} w₀ VMIMessage.empty
  | next {i t : ℕ} {l l' : LinkState} {w w' : World G} {out out' : VMIMessage}
      (h : Reaches env msgIn w₀ i l w out) (herr : out.error = none)
      (ht : msgIn.type[i]? = some t)
      (hs : processSingle env t (countBefore t msgIn.type i) msgIn out l w = .ok (l', w', out')) :
      Reaches env msgIn w₀ (i + 1) { l' with msgno := l'.msgno + 1 } w' out'

variable {env : Env G} {msgIn : VMIMessage} {w₀ : World G}

/-- The loop never passes the end of the message. -/
theorem Reaches.le_length {i : ℕ} {l : LinkState} {w : World G} {out : VMIMessage}
    (h : Reaches env msgIn w₀ i l w out) : i ≤ msgIn.type.length := by
  cases h with
  | start => exact Nat.zero_le _
  | next _ _ ht _ =>
    obtain ⟨hlt, -⟩ := List.getElem?_eq_some_iff.mp ht
    exact hlt

/-- One iteration of the loop, at a position it has arrived at. -/
theorem processTypes_step {i t : ℕ} (ht : msgIn.type[i]? = some t) (l : LinkState) (w : World G)
    {out : VMIMessage} (herr : out.error = none) :
    processTypes env msgIn (msgIn.type.drop i) (countsAfter (msgIn.type.take i)) l w out =
      (do
        let (l, w, out) ← processSingle env t (countBefore t msgIn.type i) msgIn out l w
        processTypes env msgIn (msgIn.type.drop (i + 1)) (countsAfter (msgIn.type.take (i + 1)))
          { l with msgno := l.msgno + 1 } w out) := by
  obtain ⟨hlt, hget⟩ := List.getElem?_eq_some_iff.mp ht
  have htake : msgIn.type.take (i + 1) = msgIn.type.take i ++ [t] := by
    rw [List.take_add_one, ht]
    rfl
  rw [List.drop_eq_getElem_cons hlt, hget, processTypes, nextCount_countsAfter, herr]
  simp only [Option.isSome_none, Bool.false_eq_true, if_false]
  rw [countsAfter_append, htake]
  rfl

/-- **The loop goes through the states it reaches.** From any of them it continues to the
    same end as from the start. -/
theorem processTypes_of_reaches {i : ℕ} {l : LinkState} {w : World G} {out : VMIMessage}
    (h : Reaches env msgIn w₀ i l w out) :
    processTypes env msgIn msgIn.type (fun _ => none) {} w₀ VMIMessage.empty =
      processTypes env msgIn (msgIn.type.drop i) (countsAfter (msgIn.type.take i)) l w out := by
  induction h with
  | start =>
    have hcounts : countsAfter [] = fun _ => none := by
      funext t
      simp [countsAfter]
    simp [hcounts]
  | next _ herr ht hs ih =>
    rw [ih, processTypes_step ht _ _ herr, hs]
    rfl

/-- The loop ends at a reached state: the end of the message, or the first error. -/
theorem reaches_of_processTypes {i : ℕ} {l l' : LinkState} {w w' : World G}
    {out out' : VMIMessage} (h : Reaches env msgIn w₀ i l w out)
    (hrun : processTypes env msgIn (msgIn.type.drop i) (countsAfter (msgIn.type.take i)) l w out =
      .ok (l', w', out')) :
    ∃ j, i ≤ j ∧ Reaches env msgIn w₀ j l' w' out' ∧
      (j = msgIn.type.length ∨ out'.error.isSome) := by
  generalize hn : msgIn.type.length - i = n
  induction n generalizing i l w out with
  | zero =>
    have hle := h.le_length
    rw [List.drop_eq_nil_of_le (by omega)] at hrun
    cases hrun
    exact ⟨i, le_rfl, h, .inl (by omega)⟩
  | succ n ih =>
    have hlt : i < msgIn.type.length := by omega
    have ht : msgIn.type[i]? = some msgIn.type[i] := List.getElem?_eq_getElem hlt
    cases herr : out.error with
    | some e =>
      rw [List.drop_eq_getElem_cons hlt, processTypes, herr] at hrun
      cases hrun
      exact ⟨i, le_rfl, h, .inr (by simp [herr])⟩
    | none =>
      rw [processTypes_step ht _ _ herr] at hrun
      obtain ⟨⟨l₁, w₁, out₁⟩, hs, hrun⟩ := bind_eq_ok.mp hrun
      obtain ⟨j, hj, hreach, hend⟩ := ih (.next h herr ht hs) hrun (by omega)
      exact ⟨j, by omega, hreach, hend⟩

/-- Where `process_protobuf` comes to its end: an overlong message is not looked at, another
    one ends with its last call or at the first error. -/
theorem reaches_of_processProtobuf {w' : World G} {out : VMIMessage}
    (h : processProtobuf env msgIn w₀ = .ok (w', out)) :
    ∃ i l, Reaches env msgIn w₀ i l w' out ∧
      (maxTypes < msgIn.type.length ∧ i = 0 ∨
        msgIn.type.length ≤ maxTypes ∧ (i = msgIn.type.length ∨ out.error.isSome)) := by
  unfold processProtobuf at h
  by_cases hlong : maxTypes < msgIn.type.length
  · rw [if_pos hlong] at h
    cases h
    exact ⟨0, {}, .start, .inl ⟨hlong, rfl⟩⟩
  · rw [if_neg hlong] at h
    obtain ⟨⟨l, w₁, out₁⟩, hrun, h⟩ := bind_eq_ok.mp h
    cases h
    rw [processTypes_of_reaches .start] at hrun
    obtain ⟨j, -, hreach, hend⟩ := reaches_of_processTypes .start hrun
    exact ⟨j, l, hreach, .inr ⟨not_lt.mp hlong, hend⟩⟩

/-- A message that is processed without an error is processed to its end. -/
theorem reaches_end {w' : World G} {out : VMIMessage} (hlen : msgIn.type.length ≤ maxTypes)
    (h : processProtobuf env msgIn w₀ = .ok (w', out)) (herr : out.error = none) :
    ∃ l, Reaches env msgIn w₀ msgIn.type.length l w' out := by
  obtain ⟨i, l, hreach, ⟨hlong, -⟩ | ⟨-, rfl | hsome⟩⟩ := reaches_of_processProtobuf h
  · omega
  · exact ⟨l, hreach⟩
  · rw [herr] at hsome
    cases hsome

/-- The error flag is never set to false. -/
theorem Reaches.error_cases {i : ℕ} {l : LinkState} {w : World G} {out : VMIMessage}
    (h : Reaches env msgIn w₀ i l w out) : out.error = none ∨ out.error = some true := by
  cases h with
  | start => exact .inl rfl
  | @next _ t _ _ _ _ _ _ _ herr _ hs =>
    cases hc : Call.ofNum? t with
    | none =>
      rw [processSingle, hc] at hs
      cases hs
      exact .inr rfl
    | some c =>
      have htc := Call.num_of_ofNum? hc
      subst htc
      obtain ⟨r, -, rfl⟩ := processSingle_call hs
      rw [record_error, herr]
      split
      · exact .inr rfl
      · exact .inl rfl

/-! ### A message of one call -/

/-- The request of the only call. -/
theorem request_addCall (c : Call) (m : Msg) :
    (VMIMessage.empty.addCall c m).request c 0 = .ok m := by
  have hsub : (VMIMessage.empty.addCall c m).sub c.num = VMIMessage.putList c.num [] m := by
    simp [VMIMessage.addCall, VMIMessage.addType]
  unfold VMIMessage.request
  rw [hsub]
  unfold VMIMessage.putList
  by_cases hrep : isRepeated c.num = true
  · simp [hrep]
  · simp [hrep]

/-- A message of one type is the handler of that type, whose reply is recorded in an empty
    message. -/
theorem processProtobuf_of_type {env : Env G} {c : Call} {msgIn : VMIMessage}
    (htype : msgIn.type = [c.num]) (w : World G) :
    processProtobuf env msgIn w =
      ((handlerOf c).run c env 0 msgIn VMIMessage.empty {} w).map
        fun r => (r.2.1, record VMIMessage.empty c.replyNum r.2.2 0) := by
  unfold processProtobuf
  rw [htype]
  show (processSingle env c.num 0 msgIn VMIMessage.empty {} w >>= _) >>= _ = _
  unfold processSingle
  rw [Call.ofNum?_num]
  show ((_ >>= _) >>= _) >>= _ = _
  cases (handlerOf c).run c env 0 msgIn VMIMessage.empty {} w with
  | error e => rfl
  | ok r => rfl

theorem processProtobuf_addCall (env : Env G) (c : Call) (m : Msg) (w : World G) :
    processProtobuf env (VMIMessage.empty.addCall c m) w =
      ((handlerOf c).run c env 0 (VMIMessage.empty.addCall c m) VMIMessage.empty {} w).map
        fun r => (r.2.1, record VMIMessage.empty c.replyNum r.2.2 0) :=
  processProtobuf_of_type rfl w

/-- One call that resolves no links is answered by its body. -/
theorem processProtobuf_addCall_body {c : Call} (hlinked : (handlerOf c : Handler G).linked = false)
    (env : Env G) (m : Msg) (w : World G) :
    processProtobuf env (VMIMessage.empty.addCall c m) w =
      ((handlerOf c).body env (.ok m) w).map
        fun p => (p.1, record VMIMessage.empty c.replyNum p.2 0) := by
  rw [processProtobuf_addCall, Handler.run_of_not_linked hlinked, request_addCall]
  cases (handlerOf c).body env (.ok m) w <;> rfl

end Furnace.Vmi
