import Furnace.Vmi.Framing

namespace Furnace.Vmi

open Furnace.Proto Furnace.Lib

/-!
# The mock partition

The mock of the VMI partition runs without DRAKVUF.  It knows the reads of numbers at virtual
addresses, with their links, and takes every other call for one that does not exist.  It sends a
greeting after each of its replies, and accepts empty parts of a message.

* `mockProtobuf`, `mockZmq` — the mock.
* `mockProtobuf_eq` — **the mock is the furnace up to the first call that it does not know**.
* `mockZmq_agrees` — **on reads the mock is the furnace**, over any sequence of messages, but for
  the greetings.
-/

variable {G : Type}

/-! ### The code -/

/-- The types that `process_single` of the mock has a case for. -/
def mockKnows (t : ℕ) : Bool :=
  match Call.ofNum? t with
  | some (.readNum _ .va) => true
  | _ => false

/-- `process_single`. -/
def mockSingle (env : Env G) (t index : ℕ) (msgIn msgOut : VMIMessage) (l : LinkState)
    (w : World G) : Except Fault (LinkState × World G × VMIMessage) :=
  match Call.ofNum? t with
  | some (.readNum wd .va) => do
    let (l, w, r) ← (handlerOf (.readNum wd .va)).run (.readNum wd .va) env index msgIn msgOut l w
    .ok (l, w, record msgOut (Call.readNum wd .va).replyNum r index)
  | _ =>
    .ok (l, w, { msgOut with error := some true, errorNum := some t,
                             errorLoc := some (index + 10000) })

/-- The loop of `process_protobuf`. -/
def mockTypes (env : Env G) (msgIn : VMIMessage) :
    List ℕ → (ℕ → Option ℕ) → LinkState → World G → VMIMessage →
      Except Fault (LinkState × World G × VMIMessage)
  | [], _, l, w, out => .ok (l, w, out)
  | t :: ts, typecount, l, w, out =>
    let n := nextCount typecount t
    if out.error.isSome then .ok (l, w, out)
    else do
      let (l, w, out) ← mockSingle env t n msgIn out l w
      mockTypes env msgIn ts (Function.update typecount t (some n))
        { l with msgno := l.msgno + 1 } w out

/-- `process_protobuf`, on a request that has been decoded. -/
def mockProtobuf (env : Env G) (msgIn : VMIMessage) (w : World G) :
    Except Fault (World G × VMIMessage) :=
  if maxTypes < msgIn.type.length then .ok (w, VMIMessage.empty)
  else do
    let (_, w, out) ← mockTypes env msgIn msgIn.type (fun _ => none) {} w VMIMessage.empty
    .ok (w, out)

/-- `process_protobuf`, on the bytes of a request. -/
def mockBytes (P : Protobuf) (env : Env G) (raw : Bytes) (M : Members) (w : World G) :
    Except Fault (Members × World G × Bytes) := do
  let (_, msgIn) := parseFromArray P raw M.msgIn
  let msgOut := clear M.msgOut
  let link := { M.link with cache := fun _ => none, nthType := 0, nthFieldIx := 0, msgno := 0 }
  if maxTypes < msgIn.type.length then .ok (⟨msgIn, msgOut, link⟩, w, P.serialize msgOut)
  else do
    let (link, w, msgOut) ← mockTypes env msgIn msgIn.type (fun _ => none) link w msgOut
    .ok (⟨msgIn, msgOut, link⟩, w, P.serialize msgOut)

/-- The greeting that follows a reply. -/
def hello (ident : Bytes) : List Bytes := zmqMsend ident (literal "hello!")

/-- The body of the loop of `process_zmq` over the parts; no part must have something in it. -/
def mockPart (P : Protobuf) (env : Env G) (buf : Bytes) (s : Parts G) : Except Fault (Parts G) :=
  match s.part with
  | 1 =>
    let ident := cStr buf
    .ok { s with part := 2, ident := ident,
                 server := { s.server with vmi := { s.server.vmi with scratchIdent := ident } } }
  | 2 => .ok { s with part := 3 }
  | 3 => do
    let (members, vmi, r) ← mockBytes P env buf s.server.members s.server.vmi
    .ok { s with part := 4, server := ⟨members, vmi⟩,
                 sent := s.sent ++ [zmqMsend s.ident r, hello s.ident] }
  | part => .ok { s with part := part + 1 }

/-- One multipart message. -/
def mockParts (P : Protobuf) (env : Env G) (frames : List Bytes) (s : Server G) :
    Except Fault (Server G × List (List Bytes)) := do
  let p ← frames.foldlM (fun p buf => mockPart P env buf p) { server := s }
  .ok (p.server, p.sent)

/-- `process_zmq`, on the messages that are waiting. -/
def mockZmq (P : Protobuf) (env : Env G) :
    List (List Bytes) → Server G → Except Fault (Server G × List (List (List Bytes)))
  | [], s => .ok (s, [])
  | frames :: rest, s => do
    let (s, sent) ← mockParts P env frames s
    let (s, sents) ← mockZmq P env rest s
    .ok (s, sent :: sents)

/-! ### One call -/

section Calls

variable {env : Env G} {t : ℕ}

/-- A call that the mock knows is handled as by the furnace. -/
theorem mockSingle_known (ht : mockKnows t = true) (index : ℕ) (msgIn msgOut : VMIMessage)
    (l : LinkState) (w : World G) :
    mockSingle env t index msgIn msgOut l w = processSingle env t index msgIn msgOut l w := by
  unfold mockKnows at ht
  unfold mockSingle processSingle
  split at ht
  · rename_i wd hc
    rw [hc]
  · cases ht

/-- Another call is an error, at a location beyond any index. -/
theorem mockSingle_unknown (ht : ¬mockKnows t = true) (index : ℕ) (msgIn msgOut : VMIMessage)
    (l : LinkState) (w : World G) :
    mockSingle env t index msgIn msgOut l w =
      .ok (l, w, { msgOut with error := some true, errorNum := some t,
                               errorLoc := some (index + 10000) }) := by
  unfold mockKnows at ht
  unfold mockSingle
  split
  · rename_i wd hc
    rw [hc] at ht
    exact absurd rfl ht
  · rfl

end Calls

/-! ### One message -/

/-- The error report on a call that is not known. -/
def refuse (t index : ℕ) (out : VMIMessage) : VMIMessage :=
  { out with error := some true, errorNum := some t, errorLoc := some (index + 10000) }

/-- The end of the loop behind the calls `ts` that are left over. -/
def finish (typecount : ℕ → Option ℕ) : List ℕ → LinkState × World G × VMIMessage →
    LinkState × World G × VMIMessage
  | [], r => r
  | t :: _, (l, w, out) =>
    if out.error.isSome then (l, w, out)
    else ({ l with msgno := l.msgno + 1 }, w, refuse t (nextCount typecount t) out)

section Messages

variable {env : Env G} {msgIn : VMIMessage}

/-- The loop does nothing after an error. -/
theorem mockTypes_stopped {out : VMIMessage} (herr : out.error.isSome = true) (ts : List ℕ)
    (typecount : ℕ → Option ℕ) (l : LinkState) (w : World G) :
    mockTypes env msgIn ts typecount l w out = .ok (l, w, out) := by
  cases ts with
  | nil => rfl
  | cons t ts => exact if_pos herr

/-- The counter of a call is not moved by another one. -/
theorem finish_update {typecount : ℕ → Option ℕ} {t n : ℕ} {ts : List ℕ}
    (ht : ∀ t', ts.head? = some t' → t' ≠ t) (r : LinkState × World G × VMIMessage) :
    finish (Function.update typecount t (some n)) ts r = finish typecount ts r := by
  cases ts with
  | nil => rfl
  | cons t' ts =>
    have hcount : nextCount (Function.update typecount t (some n)) t' = nextCount typecount t' := by
      unfold nextCount
      rw [Function.update_of_ne (ht t' rfl)]
    obtain ⟨l, w, out⟩ := r
    unfold finish
    dsimp only
    rw [hcount]

/-- **The loop of the mock** is that of the furnace over the calls before the first one that the
    mock does not know. -/
theorem mockTypes_eq (ts : List ℕ) (typecount : ℕ → Option ℕ) (l : LinkState) (w : World G)
    (out : VMIMessage) :
    mockTypes env msgIn ts typecount l w out =
      (processTypes env msgIn (ts.takeWhile mockKnows) typecount l w out).map
        (finish typecount (ts.dropWhile mockKnows)) := by
  induction ts generalizing typecount l w out with
  | nil => rfl
  | cons t ts ih =>
    by_cases ht : mockKnows t = true
    · rw [List.takeWhile_cons_of_pos ht, List.dropWhile_cons_of_pos ht, mockTypes, processTypes]
      by_cases herr : out.error.isSome = true
      · rw [if_pos herr, if_pos herr]
        cases ts.dropWhile mockKnows with
        | nil => rfl
        | cons t' ts' =>
          show _ = Except.ok (if out.error.isSome then _ else _)
          rw [if_pos herr]
      · rw [if_neg herr, if_neg herr, mockSingle_known ht]
        cases processSingle env t (nextCount typecount t) msgIn out l w with
        | error e => rfl
        | ok r =>
          obtain ⟨l₁, w₁, out₁⟩ := r
          rw [ok_bind, ok_bind]
          dsimp only
          rw [ih]
          -- the first call that is not known is another one
          have hne : ∀ t', (ts.dropWhile mockKnows).head? = some t' → t' ≠ t := by
            rintro t' hhead rfl
            have hnot := List.head?_dropWhile_not mockKnows ts
            rw [hhead] at hnot
            simp [ht] at hnot
          rw [funext (finish_update hne)]
    · rw [List.takeWhile_cons_of_neg ht, List.dropWhile_cons_of_neg ht, mockTypes]
      show (if out.error.isSome then _ else _) = Except.ok (if out.error.isSome then _ else _)
      by_cases herr : out.error.isSome = true
      · rw [if_pos herr, if_pos herr]
      · rw [if_neg herr, if_neg herr, mockSingle_unknown ht, ok_bind]
        exact mockTypes_stopped rfl _ _ _ _

/-- A reply as the mock leaves it, with the calls `ts` left over: it takes the first of them for an
    error, if there is none before. -/
def cutOff : List ℕ → VMIMessage → VMIMessage
  | [], out => out
  | t :: _, out => if out.error.isSome then out else refuse t 0 out

theorem finish_none (ts : List ℕ) (l : LinkState) (w : World G) (out : VMIMessage) :
    (finish (fun _ => none) ts (l, w, out)).2 = (w, cutOff ts out) := by
  cases ts with
  | nil => rfl
  | cons t ts =>
    show (if out.error.isSome then _ else _ : LinkState × World G × VMIMessage).2 =
      (w, if out.error.isSome then _ else _)
    by_cases herr : out.error.isSome = true
    · rw [if_pos herr, if_pos herr]
    · rw [if_neg herr, if_neg herr]
      rfl

/-- **The mock is the furnace up to the first call that it does not know.**  On every request, with
    any links, it ends as the furnace's loop over the calls before that one: with its replies, in
    its state of the guest, or with its fault; and then reports the call at location `10000`. -/
theorem mockProtobuf_eq (env : Env G) (msgIn : VMIMessage) (w : World G)
    (hlen : msgIn.type.length ≤ maxTypes) :
    mockProtobuf env msgIn w =
      (processTypes env msgIn (msgIn.type.takeWhile mockKnows) (fun _ => none) {} w
        VMIMessage.empty).map fun r =>
          (r.2.1, cutOff (msgIn.type.dropWhile mockKnows) r.2.2) := by
  unfold mockProtobuf
  rw [if_neg (not_lt.mpr hlen), mockTypes_eq]
  cases processTypes env msgIn (msgIn.type.takeWhile mockKnows) (fun _ => none) {} w
      VMIMessage.empty with
  | error e => rfl
  | ok r => exact congrArg Except.ok (finish_none _ r.1 r.2.1 r.2.2)

/-- A read, and a call that the mock does not know. -/
def readThenList : VMIMessage :=
  (VMIMessage.empty.addCall (.readNum .w8 .va)
    ((Msg.empty.set .vaddr (.u64 8)).set .pid (.i32 0))).addType (Call.processList).num

/-- The read is answered, and the other call is reported. -/
theorem mockProtobuf_eq_readThenList : ∃ w out,
    mockProtobuf echoEnv readThenList (World.initial ()) = .ok (w, out) ∧
    w.ops = [.readNum .w8 (.va 8 0)] ∧ out.type = [(Call.readNum .w8 .va).replyNum] ∧
    out.errorNum = some (Call.processList).num ∧ out.errorLoc = some 10000 :=
  ⟨_, _, (mockProtobuf_eq echoEnv readThenList (World.initial ()) (by decide)).trans rfl, rfl, rfl,
    rfl, rfl⟩

/-- What a bulk read would find in its buffer is nothing to the mock. -/
theorem mockTypes_withLeftover (leftover : ℕ → Bytes) (ts : List ℕ) (typecount : ℕ → Option ℕ)
    (l : LinkState) (w : World G) (out : VMIMessage) :
    mockTypes (env.withLeftover leftover) msgIn ts typecount l w out =
      mockTypes env msgIn ts typecount l w out := by
  have hsingle : ∀ t index (out : VMIMessage) (l : LinkState) (w : World G),
      mockSingle (env.withLeftover leftover) t index msgIn out l w =
        mockSingle env t index msgIn out l w := by
    intro t index out l w
    unfold mockSingle
    split
    · rename_i wd hc
      cases wd <;> rfl
    · rfl
  induction ts generalizing typecount l w out with
  | nil => rfl
  | cons t ts ih =>
    rw [mockTypes, mockTypes, hsingle]
    simp only [ih]

/-- A request that only asks for what the mock knows is processed as by the furnace. -/
theorem mockBytes_eq {P : Protobuf} {raw : Bytes}
    (hknown : ∀ t ∈ (decoded P raw).type, mockKnows t = true) (leftover : ℕ → Bytes) (M : Members)
    (w : World G) : mockBytes P env raw M w = processBytes P env leftover raw M w := by
  have htake : (decoded P raw).type.takeWhile mockKnows = (decoded P raw).type :=
    List.takeWhile_eq_self_iff.mpr hknown
  have hdrop : (decoded P raw).type.dropWhile mockKnows = [] :=
    List.dropWhile_eq_nil_iff.mpr hknown
  have htypes : ∀ l, mockTypes env (decoded P raw) (decoded P raw).type (fun _ => none) l w
      VMIMessage.empty = processTypes (env.withLeftover leftover) (decoded P raw)
        (decoded P raw).type (fun _ => none) l w VMIMessage.empty := by
    intro l
    rw [← mockTypes_withLeftover leftover, mockTypes_eq, htake, hdrop]
    cases processTypes (env.withLeftover leftover) (decoded P raw) (decoded P raw).type
      (fun _ => none) l w VMIMessage.empty <;> rfl
  show (if maxTypes < (decoded P raw).type.length then _ else _) =
    if maxTypes < (decoded P raw).type.length then _ else _
  by_cases hlong : maxTypes < (decoded P raw).type.length
  · rw [if_pos hlong, if_pos hlong]
  · rw [if_neg hlong, if_neg hlong]
    show mockTypes env (decoded P raw) (decoded P raw).type _ _ w VMIMessage.empty >>= _ =
      processTypes _ (decoded P raw) (decoded P raw).type _ _ w VMIMessage.empty >>= _
    rw [htypes]

end Messages

/-! ### The socket -/

section Socket

variable {P : Protobuf} {env : Env G} {leftover : ℕ → Bytes}

/-- A reply and its greeting. -/
def greeted (reply : List Bytes) : List (List Bytes) :=
  match reply with
  | ident :: _ => [reply, hello ident]
  | [] => [reply]

/-- What the mock has in its variables when the furnace has `p` in its own. -/
def Parts.greeted (p : Parts G) : Parts G := { p with sent := p.sent.flatMap Vmi.greeted }

/-- **One part.**  A part that the furnace takes the mock takes in the same way. -/
theorem mockPart_of_processPart {buf : Bytes} {p p' : Parts G}
    (hknown : p.part = 3 → ∀ t ∈ (decoded P buf).type, mockKnows t = true)
    (h : processPart P env leftover buf p = .ok p') :
    mockPart P env buf p.greeted = .ok p'.greeted := by
  obtain ⟨part, ident, server, sent⟩ := p
  unfold processPart at h
  split at h
  · cases h
  · split at h
    · rename_i hpart
      cases h
      dsimp only at hpart
      subst hpart
      rfl
    · rename_i hpart
      cases h
      dsimp only at hpart
      subst hpart
      rfl
    · rename_i hpart
      dsimp only at hpart hknown
      subst hpart
      obtain ⟨⟨members, vmi, r⟩, hr, h⟩ := bind_eq_ok.mp h
      cases h
      show mockBytes P env buf server.members server.vmi >>= _ = _
      rw [mockBytes_eq (hknown rfl) leftover, hr, ok_bind]
      simp [Parts.greeted, greeted, zmqMsend]
    · rename_i hone htwo hthree
      cases h
      unfold mockPart Parts.greeted
      dsimp only at hone htwo hthree ⊢
      split
      · exact absurd rfl hone
      · exact absurd rfl htwo
      · exact absurd rfl hthree
      · rfl

/-- The number of the next part. -/
theorem part_of_processPart {buf : Bytes} {p p' : Parts G}
    (h : processPart P env leftover buf p = .ok p') : p'.part = p.part + 1 := by
  unfold processPart at h
  split at h
  · cases h
  · split at h
    · rename_i hpart
      cases h
      rw [hpart]
    · rename_i hpart
      cases h
      rw [hpart]
    · rename_i hpart
      obtain ⟨r, -, h⟩ := bind_eq_ok.mp h
      cases h
      rw [hpart]
    · cases h
      rfl

/-- The parts of a message, from one of them on. -/
theorem foldlM_mockPart {frames : List Bytes} {p p' : Parts G}
    (hknown : ∀ i payload, frames[i]? = some payload → p.part + i = 3 →
      ∀ t ∈ (decoded P payload).type, mockKnows t = true)
    (h : frames.foldlM (fun p buf => processPart P env leftover buf p) p = .ok p') :
    frames.foldlM (fun p buf => mockPart P env buf p) p.greeted = .ok p'.greeted := by
  induction frames generalizing p with
  | nil =>
    cases h
    rfl
  | cons buf frames ih =>
    rw [List.foldlM_cons] at h ⊢
    obtain ⟨p₁, h₁, h⟩ := bind_eq_ok.mp h
    rw [mockPart_of_processPart (hknown 0 buf rfl) h₁, ok_bind]
    have hpart := part_of_processPart h₁
    refine ih (fun i payload hi heq => hknown (i + 1) payload hi (by omega)) h

/-- **On reads the mock is the furnace.**  Over any sequence of messages that the furnace serves,
    and that only ask for what the mock knows, the mock comes to the same state of the guest, and
    sends the same replies in the same order, each with a greeting behind it. -/
theorem mockZmq_agrees {msgs : List (List Bytes)} {s s' : Server G}
    {sents : List (List (List Bytes))}
    (hknown : ∀ frames ∈ msgs, ∀ payload, frames[2]? = some payload →
      ∀ t ∈ (decoded P payload).type, mockKnows t = true)
    (h : processZmq P env leftover msgs s = .ok (s', sents)) :
    mockZmq P env msgs s = .ok (s', sents.map fun sent => sent.flatMap greeted) := by
  induction msgs generalizing s sents with
  | nil =>
    cases h
    rfl
  | cons frames msgs ih =>
    obtain ⟨⟨s₁, sent⟩, h₁, h⟩ := bind_eq_ok.mp h
    obtain ⟨⟨s₂, rest⟩, h₂, h⟩ := bind_eq_ok.mp h
    cases h
    obtain ⟨p, hp, h₁⟩ := bind_eq_ok.mp h₁
    cases h₁
    have hparts := foldlM_mockPart (p := { server := s }) (fun i payload hi heq => by
      obtain rfl : i = 2 := by
        dsimp only at heq
        omega
      exact hknown frames (List.mem_cons_self ..) payload hi) hp
    have hfirst : mockParts P env frames s = .ok (p.server, p.sent.flatMap greeted) := by
      unfold mockParts
      have hstart : ({ server := s } : Parts G).greeted = { server := s } := rfl
      rw [← hstart, hparts]
      rfl
    rw [mockZmq, hfirst, ok_bind]
    dsimp only
    rw [ih (fun frames' hmem => hknown frames' (List.mem_cons_of_mem _ hmem)) h₂]
    rfl

end Socket

/-- A parser that takes every request for a read. -/
def readParser : Protobuf where
  parse _ := (true, VMIMessage.empty.addCall (.readNum .w8 .va)
    ((Msg.empty.set .vaddr (.u64 8)).set .pid (.i32 0)))
  serialize _ := [7]

/-- One such request, and one message without a request. -/
theorem mockZmq_agrees_read : ∃ s',
    mockZmq readParser echoEnv [[[102], [], [1]], [[103]]] { vmi := World.initial () } =
      .ok (s', [[[[102], [], [7]], hello [102]], []]) := by
  have hrun : ∃ s', processZmq readParser echoEnv (fun _ => []) [[[102], [], [1]], [[103]]]
      { vmi := World.initial () } = .ok (s', [[[[102], [], [7]]], []]) := ⟨_, rfl⟩
  obtain ⟨s', hrun⟩ := hrun
  refine ⟨s', mockZmq_agrees ?_ hrun⟩
  intro frames _ payload _ t ht
  rw [show t = (Call.readNum .w8 .va).num from List.mem_singleton.mp ht]
  rfl

end Furnace.Vmi
