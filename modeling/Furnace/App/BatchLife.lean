import Furnace.App.Access
import Furnace.App.AddFailure
import Furnace.Lib.Transition

namespace Furnace.App

open Furnace.Proto Furnace.Lib Furnace.Vmi

/-!
# The life of a batch object

An app fills a batch object, sends it, reads its results, fills it further or resets it, in any
order and as often as it likes, and with other calls in between.  What `results` gives depends on
the state that the object is left in: the reply of the last `batch_send`, or what an earlier
`parse` has left.

* `Batch` — the object with all its members, as they are also after an exception.
* `FE.batchSend` — `batch_send`, together with the VMI partition's part of it.
* `BatchRun.next` — one operation of the app's.
* `batch_sends_current` — what goes out is the request as it stands.
* `results_labelled` — **every dict has the name of the call that gave its values**, also when the
  results are old ones.
-/

variable {G : Type}

/-! ### The object -/

/-- A `batch_obj` with all its members. -/
structure Batch extends Members where
  reply : VMIMessage := VMIMessage.empty
  rawOut : VMIMessage := VMIMessage.empty
  rawIn : VMIMessage := VMIMessage.empty

namespace Batch

/-- The constructor. -/
def new : Batch := {}

/-- `reset`. -/
def reset (b : Batch) : Batch :=
  { b with
    request := VMIMessage.empty
    reply := VMIMessage.empty
    namemap := fun _ => none
    order := []
    namestack := []
    rawOut := VMIMessage.empty
    rawIn := VMIMessage.empty
    state := .empty }

/-- `add`. -/
def add (b : Batch) (a : AddArgs) : Batch × Option PyError :=
  ({ b with toMembers := (b.toMembers.add a).1 }, (b.toMembers.add a).2)

/-- `serialize`. -/
def serialize (b : Batch) : Batch := { b with state := .serialized, rawOut := b.request }

/-- `parse`: the reply has been replaced also when an exception is raised.  Before the first reply
    `raw_in` is an empty message here, where the source has text and raises a `TypeError`. -/
def parse (b : Batch) : Batch × Option PyError :=
  let b := { b with reply := b.rawIn }
  if b.request.type.length ≠ b.reply.type.length then (b, some .exception)
  else if b.reply.error = some true then (b, some .exception)
  else ({ b with state := .resultsParsed }, none)

/-- `if self.state == RESULTS_RAW: self.parse()`. -/
def parseIfRaw (b : Batch) : Batch × Option PyError :=
  if b.state = .resultsRaw then b.parse else (b, none)

/-- `results_size`. -/
def resultsSize (b : Batch) : Batch × Except PyError ℕ :=
  match b.parseIfRaw with
  | (b, some e) => (b, .error e)
  | (b, none) => (b, .ok b.reply.type.length)

/-- `results`, run to its end: the dicts, and the exception that ends it. -/
def results (b : Batch) : Batch × List ResultDict × Option PyError :=
  match b.parseIfRaw with
  | (b, some e) => (b, [], some e)
  | (b, none) => (b, resultsFrom b.reply b.namestack b.reply.type (fun _ => 0) 0)

/-- `batch_send` up to the message: what is sent is `raw_out`. -/
def outgoing (b : Batch) : Except PyError Batch :=
  if b.state = .serialized then .ok b
  else if b.state = .filling then .ok b.serialize
  else .error .exception

/-- A batch object whose calls have all been added. -/
def ofBatchObj (bo : BatchObj) : Batch where
  toMembers := Members.ofBatchObj bo
  reply := bo.reply
  rawOut := bo.rawOut
  rawIn := bo.rawIn

@[simp] theorem ofBatchObj_state (bo : BatchObj) : (ofBatchObj bo).state = bo.state := rfl

theorem parse_ofBatchObj (bo : BatchObj) :
    (ofBatchObj bo).parse = match bo.parse with
      | .ok bo' => (ofBatchObj bo', none)
      | .error e => ({ ofBatchObj bo with reply := bo.rawIn }, some e) := by
  unfold parse BatchObj.parse
  by_cases hlen : bo.request.type.length ≠ bo.rawIn.type.length
  · rw [if_pos hlen]
    exact if_pos hlen
  · rw [if_neg hlen]
    refine (if_neg hlen).trans ?_
    by_cases herror : bo.rawIn.error = some true
    · rw [if_pos herror]
      exact if_pos herror
    · rw [if_neg herror]
      exact if_neg herror

/-- The two models agree: the dicts and the exception are those of the batch object. -/
theorem results_ofBatchObj (bo : BatchObj) : (ofBatchObj bo).results.2 = bo.results := by
  unfold results parseIfRaw BatchObj.results
  rw [ofBatchObj_state, parse_ofBatchObj]
  by_cases hraw : bo.state = .resultsRaw
  · simp only [if_pos hraw]
    cases bo.parse <;> rfl
  · simp only [if_neg hraw]
    rfl

theorem outgoing_ofBatchObj (bo : BatchObj) :
    (ofBatchObj bo).outgoing = bo.outgoing.map ofBatchObj := by
  unfold outgoing BatchObj.outgoing
  rw [ofBatchObj_state]
  by_cases hserialized : bo.state = .serialized
  · simp only [if_pos hserialized]
    rfl
  · simp only [if_neg hserialized]
    by_cases hfilling : bo.state = .filling
    · simp only [if_pos hfilling]
      rfl
    · simp only [if_neg hfilling]
      rfl

/-- A batch object that has been read goes out again as it is: the app sets its state back. -/
def again (b : Batch) : Batch :=
  if b.state = .resultsRaw ∨ b.state = .resultsParsed then { b with state := .serialized } else b

end Batch

/-- `batch_send`, together with the VMI partition's part of it. -/
def FE.batchSend (fe : FE) (env : Env G) (b : Batch) (w : World G) :
    Except Fault (World G × Batch × Option PyError) :=
  match b.outgoing with
  | .error e => .ok (w, b, some e)
  | .ok b => do
    let (w, reply) ← processProtobuf env b.rawOut (fe.asking w)
    .ok (w, { b with rawIn := reply, state := .resultsRaw }, none)

/-! ### Runs -/

/-- What the app does with its batch object; in between anything else may happen to the VMI
    partition. -/
inductive BatchOp (G : Type)
  | add (a : AddArgs) | serialize | send | parse | results | resultsSize | reset | again
  | elsewhere (w : World G)

/-- A batch that was sent: the names and the request, the world in which it arrived, and the
    reply. -/
structure Sending (G : Type) where
  names : List String
  request : VMIMessage
  world : World G
  reply : VMIMessage

/-- A batch object, the VMI partition, and as a ghost all that was sent. -/
structure BatchRun (G : Type) where
  batch : Batch := .new
  vmi : World G
  sent : List (Sending G) := []

namespace BatchRun

/-- `batch_send`. -/
def sends (env : Env G) (fe : FE) (s : BatchRun G) : Option (BatchRun G) :=
  match fe.batchSend env s.batch s.vmi with
  -- a fault ends the VMI partition, and the app waits for ever
  | .error _ => none
  | .ok (w, b, some _) => some { s with batch := b, vmi := w }
  | .ok (w, b, none) =>
    some { batch := b, vmi := w,
           sent := s.sent ++ [⟨b.namestack, b.rawOut, fe.asking s.vmi, b.rawIn⟩] }

/-- One operation; the app catches what is raised. -/
def next (env : Env G) (fe : FE) (s : BatchRun G) : BatchOp G → Option (BatchRun G)
  | .add a => some { s with batch := (s.batch.add a).1 }
  | .serialize => some { s with batch := s.batch.serialize }
  | .send => s.sends env fe
  | .parse => some { s with batch := s.batch.parse.1 }
  | .results => some { s with batch := s.batch.results.1 }
  | .resultsSize => some { s with batch := s.batch.resultsSize.1 }
  | .reset => some { s with batch := s.batch.reset }
  | .again => some { s with batch := s.batch.again }
  | .elsewhere w => some { s with vmi := w }

/-- The runs of a batch object from its constructor on. -/
def system (env : Env G) (fe : FE) : TransitionSystem (BatchRun G) (BatchOp G) where
  init s := s.batch = .new ∧ s.sent = []
  step s op s' := s.next env fe op = some s'

/-- No `add` leaves half a call behind: it succeeds, or knows no such message type. -/
def Whole (s : BatchRun G) : BatchOp G → Prop
  | .add a => s.batch.toMembers.Addable a ∨ a.msgtype = .unknown
  | _ => True

end BatchRun

/-! ### One reply -/

section Reply

variable {env : Env G} {request reply : VMIMessage} {w w' : World G}

/-- A reply has no more types than its request. -/
theorem length_type_le (hrun : processProtobuf env request w = .ok (w', reply)) :
    reply.type.length ≤ request.type.length := by
  obtain ⟨i, l, hreach, -⟩ := reaches_of_processProtobuf hrun
  have hle := hreach.le_length
  cases hreach with
  | start => exact Nat.zero_le _
  | @next i t l l' w₁ w₂ out _ hreach herr ht hs =>
    obtain ⟨rs, hp, -⟩ := hreach.isPrefix herr
    have hlen := hp.type_length
    cases hc : Call.ofNum? t with
    | none =>
      rw [processSingle, hc] at hs
      cases hs
      show out.type.length ≤ _
      omega
    | some c =>
      have htc := Call.num_of_ofNum? hc
      subst htc
      obtain ⟨r, -, rfl⟩ := processSingle_call hs
      rw [record_type, List.length_append]
      split
      · simp only [List.length_singleton]
        omega
      · simp only [List.length_nil]
        omega

/-- More names than replies make no difference. -/
theorem resultsFrom_append {names more : List String} {ts : List ℕ} {typecount : ℕ → ℕ} {i : ℕ}
    {ds : List ResultDict} (h : resultsFrom reply names ts typecount i = (ds, none)) :
    resultsFrom reply (names ++ more) ts typecount i = (ds, none) := by
  induction ts generalizing typecount i ds with
  | nil => exact h
  | cons t ts ih =>
    rw [resultsFrom] at h ⊢
    cases hturn : resultAt reply names t (typecount t) i with
    | error e =>
      rw [hturn] at h
      cases h
    | ok d =>
      -- the name of this turn is among the first ones
      have hturn' : resultAt reply (names ++ more) t (typecount t) i = .ok d := by
        obtain ⟨fields, hfields, hrest⟩ := bind_eq_ok.mp hturn
        obtain ⟨hrep, hrest⟩ := ite_error_eq_ok.mp hrest
        have hname : ∃ name, names[i]? = some name := by
          cases hn : names[i]? with
          | none =>
            rw [hn] at hrest
            cases hm : (reply.sub t)[typecount t]? <;> rw [hm] at hrest <;> cases hrest
          | some name => exact ⟨name, rfl⟩
        obtain ⟨name, hname⟩ := hname
        have hlt := (List.getElem?_eq_some_iff.mp hname).1
        rw [← hturn]
        unfold resultAt
        rw [List.getElem?_append_left hlt]
      rw [hturn] at h
      rw [hturn']
      dsimp only at h ⊢
      obtain ⟨hds, hend⟩ := Prod.mk.inj h
      let typecount' := Function.update typecount t (typecount t + 1)
      have hrest : resultsFrom reply (names ++ more) ts typecount' (i + 1) =
          ((resultsFrom reply names ts typecount' (i + 1)).1, none) := ih (Prod.ext rfl hend)
      rw [hrest, ← hds]

/-- Dict `i` has the name of call `i` of the request, and the reply that was produced for it. -/
def Labelled (env : Env G) (request : VMIMessage) (w : World G) (names : List String)
    (ds : List ResultDict) : Prop :=
  ∀ i d, ds[i]? = some d → ∃ name c m, names[i]? = some name ∧ request.type[i]? = some c.num ∧
    Produced env request w i c m ∧ Shows d name c m

/-- **The dicts of a reply without an error** are those of its calls, in order.  An overlong
    request has an empty reply. -/
theorem resultsFrom_labelled (hrun : processProtobuf env request w = .ok (w', reply))
    (herr : reply.error = none) (hrep : ∀ t ∈ request.type, isRepeated t = true)
    {names : List String} (hlen : names.length = request.type.length) (more : List String) :
    ∃ ds, resultsFrom reply (names ++ more) reply.type (fun _ => 0) 0 = (ds, none) ∧
      ds.length = reply.type.length ∧ Labelled env request w names ds := by
  by_cases hlong : maxTypes < request.type.length
  · rw [processProtobuf, if_pos hlong] at hrun
    cases hrun
    exact ⟨[], rfl, rfl, fun i d h => by cases h⟩
  · obtain ⟨l, hreach⟩ := reaches_end (not_lt.mp hlong) hrun herr
    obtain ⟨rs, hp, hrs⟩ := hreach.isPrefix herr
    -- every reply is in the repeated field of its call
    have hcall : ∀ x ∈ rs, ∃ c : Call, x.1 = c.replyNum ∧ isRepeated c.replyNum = true := by
      intro x hx
      obtain ⟨i, hi⟩ := List.mem_iff_getElem?.mp hx
      have hlt : i < request.type.length := hp.length ▸ (List.getElem?_eq_some_iff.mp hi).1
      obtain ⟨c, m, hprod, hget⟩ := hrs i hlt
      obtain ⟨-, -, -, -, -, -, -, -, ht, -⟩ := hprod
      rw [hi] at hget
      cases hget
      have hbatch : c.isBatchable := by
        rw [Call.isBatchable_iff, ← Call.isRepeated_num_iff]
        exact hrep _ (List.mem_of_getElem? ht)
      exact ⟨c, rfl, Call.isRepeated_replyNum hbatch⟩
    have hsub : ∀ t m, (t, m) ∈ rs → reply.sub t = bucket t rs := by
      intro t m hmem
      obtain ⟨c, hc, hrepeated⟩ := hcall (t, m) hmem
      have hc : t = c.replyNum := hc
      exact hp.sub t (by rw [hc]; exact hrepeated)
    have hnames : names.length = rs.length := hlen.trans hp.length.symm
    have hgen : resultsFrom reply names (rs.map Prod.fst) (fun _ => 0) 0 = _ :=
      resultsFrom_eq hsub hcall hnames (show rs = [] ++ rs from rfl)
    rw [← hp.type] at hgen
    refine ⟨_, resultsFrom_append hgen, ?_, ?_⟩
    · rw [hp.type]
      simp [hnames]
    · intro i d hd
      have hd : (List.zipWith (fun name x => resultDict name (replyDescriptor x.1) x.2) names
          rs)[i]? = some d := hd
      rw [List.getElem?_zipWith_eq_some] at hd
      obtain ⟨name, x, hname, hx, rfl⟩ := hd
      have hlt : i < request.type.length := hp.length ▸ (List.getElem?_eq_some_iff.mp hx).1
      obtain ⟨c, m, hprod, hget⟩ := hrs i hlt
      rw [hx] at hget
      cases hget
      obtain ⟨-, -, -, -, -, -, -, -, ht, -⟩ := id hprod
      refine ⟨name, c, m, hname, ht, hprod, ?_⟩
      rw [replyDescriptor_replyNum]
      exact resultDict_shows name c m

end Reply

/-! ### What a call adds -/

/-- A call that can be added puts its type and its name at the end. -/
theorem Members.add_spec {m : Members} {a : AddArgs} (h : m.Addable a) :
    ∃ n, isRepeated n = true ∧ (m.add a).1.request.type = m.request.type ++ [n] ∧
      (m.add a).1.namestack = m.namestack ++ [a.name] ∧ (m.add a).1.state = .filling := by
  have hnone := Members.add_none_iff.mpr h
  have hmessage : ∀ n fields, isRepeated n = true →
      (Members.add.addMessage m a n fields).2 = none →
      (Members.add.addMessage m a n fields).1.request.type = m.request.type ++ [n] ∧
        (Members.add.addMessage m a n fields).1.namestack = m.namestack ++ [a.name] ∧
        (Members.add.addMessage m a n fields).1.state = .filling := by
    intro n fields hrep hadd
    rw [Members.add.addMessage, if_pos hrep] at hadd ⊢
    rcases hfill : m.fill a fields with ⟨submsg, _ | e⟩
    · exact ⟨rfl, rfl, rfl⟩
    · rw [hfill] at hadd
      cases hadd
  obtain ⟨n, fields, htype, hrep, -⟩ := h
  refine ⟨n, hrep, ?_⟩
  unfold Members.add at hnone ⊢
  cases hmsg : a.msgtype with
  | event | request | reply =>
    rw [hmsg] at htype hnone
    cases htype
    exact hmessage _ _ hrep hnone
  | constant | unknown =>
    rw [hmsg] at htype
    cases htype

/-! ### What holds throughout -/

/-- A batch was sent whole, and answered. -/
structure Sending.Made (env : Env G) (x : Sending G) : Prop where
  run : ∃ w', processProtobuf env x.request x.world = .ok (w', x.reply)
  aligned : x.names.length = x.request.type.length
  repeated : ∀ t ∈ x.request.type, isRepeated t = true

/-- The calls that were sent are still the first ones of the batch, and if there are as many, they
    are the batch. -/
structure Sending.Within (x : Sending G) (namestack : List String) (request : VMIMessage) :
    Prop where
  names : x.names <+: namestack
  all : x.request = request ∧ x.names = namestack ∨ x.request.type.length < request.type.length

/-- The results are those of the last `batch_send`. -/
def Batch.Fresh (b : Batch) : Prop := b.state = .resultsRaw ∨ b.state = .resultsParsed

/-- What `parse` leaves behind when it returns. -/
structure Batch.Parsed (b : Batch) : Prop where
  reply : b.reply = b.rawIn
  length : b.request.type.length = b.reply.type.length
  error : b.reply.error ≠ some true

/-- The invariant of a batch object all of whose calls are whole. -/
structure BatchRun.Inv (env : Env G) (s : BatchRun G) : Prop where
  aligned : s.batch.namestack.length = s.batch.request.type.length
  repeated : ∀ t ∈ s.batch.request.type, isRepeated t = true
  rawOut : s.batch.state ≠ .filling → s.batch.rawOut = s.batch.request
  made : ∀ x ∈ s.sent, x.Made env
  rawIn : s.batch.rawIn = VMIMessage.empty ∨
    ∃ x, s.sent.getLast? = some x ∧ s.batch.rawIn = x.reply ∧
      x.Within s.batch.namestack s.batch.request
  reply : s.batch.reply = VMIMessage.empty ∨
    ∃ x ∈ s.sent, s.batch.reply = x.reply ∧ x.Within s.batch.namestack s.batch.request
  filling : s.batch.state = .filling →
    s.batch.rawIn.type.length < s.batch.request.type.length
  parsed : s.batch.state = .resultsParsed → s.batch.Parsed

section Steps

variable {env : Env G} {fe : FE} {s s' : BatchRun G}

namespace BatchRun

theorem Inv.start (h : s.batch = .new ∧ s.sent = []) : s.Inv env := by
  obtain ⟨hbatch, hsent⟩ := h
  refine ⟨?_, ?_, ?_, ?_, ?_, ?_, ?_, ?_⟩
  all_goals simp [hbatch, hsent, Batch.new]

/-- The reply that came in is no longer than the request. -/
theorem Inv.rawIn_length_le (h : s.Inv env) :
    s.batch.rawIn.type.length ≤ s.batch.request.type.length := by
  rcases h.rawIn with hempty | ⟨x, hx, hraw, hwithin⟩
  · rw [hempty]
    exact Nat.zero_le _
  · obtain ⟨w', hrun⟩ := (h.made x (List.mem_of_getLast? hx)).run
    have hle := length_type_le hrun
    rw [hraw]
    rcases hwithin.all with ⟨heq, -⟩ | hlt
    · rwa [← heq]
    · omega

/-- A call that is added comes behind those that were sent. -/
theorem Inv.add (h : s.Inv env) {a : AddArgs}
    (ha : s.batch.toMembers.Addable a ∨ a.msgtype = .unknown) :
    Inv env { s with batch := (s.batch.add a).1 } := by
  rcases ha with ha | ha
  · obtain ⟨n, hrep, htype, hnames, hstate⟩ := Members.add_spec ha
    have hlen : (s.batch.add a).1.request.type.length = s.batch.request.type.length + 1 := by
      show (s.batch.toMembers.add a).1.request.type.length = _
      rw [htype, List.length_append, List.length_singleton]
    have hwithin : ∀ x : Sending G, x.Within s.batch.namestack s.batch.request →
        x.Within (s.batch.add a).1.namestack (s.batch.add a).1.request := by
      intro x hx
      refine ⟨?_, .inr ?_⟩
      · show x.names <+: (s.batch.toMembers.add a).1.namestack
        rw [hnames]
        exact hx.names.trans (List.prefix_append _ _)
      · rw [hlen]
        rcases hx.all with ⟨heq, -⟩ | hlt
        · rw [heq]
          omega
        · omega
    refine ⟨?_, ?_, ?_, h.made, ?_, ?_, ?_, ?_⟩
    · show (s.batch.toMembers.add a).1.namestack.length = _
      rw [hlen, hnames, List.length_append, h.aligned, List.length_singleton]
    · intro t ht
      have ht : t ∈ (s.batch.toMembers.add a).1.request.type := ht
      rw [htype, List.mem_append, List.mem_singleton] at ht
      rcases ht with ht | rfl
      · exact h.repeated t ht
      · exact hrep
    · intro hne
      exact absurd hstate hne
    · exact h.rawIn.imp id fun ⟨x, hx, hraw, hin⟩ => ⟨x, hx, hraw, hwithin x hin⟩
    · exact h.reply.imp id fun ⟨x, hx, hraw, hin⟩ => ⟨x, hx, hraw, hwithin x hin⟩
    · intro _
      have hle := h.rawIn_length_le
      rw [hlen]
      show s.batch.rawIn.type.length < _
      omega
    · intro hparsed
      have hparsed : (s.batch.toMembers.add a).1.state = .resultsParsed := hparsed
      rw [hstate] at hparsed
      cases hparsed
  -- nothing is added
  · have hsame : (s.batch.add a).1 = s.batch := by
      have hmembers : (s.batch.toMembers.add a).1 = s.batch.toMembers := by
        rw [Members.add, ha]
      show { s.batch with toMembers := (s.batch.toMembers.add a).1 } = s.batch
      rw [hmembers]
    rw [hsame]
    exact h

/-- A change of the state to `SERIALIZED`, with `raw_out` the request. -/
theorem Inv.serialized (h : s.Inv env) :
    Inv env { s with batch := { s.batch with state := .serialized, rawOut := s.batch.request } } :=
  { aligned := h.aligned
    repeated := h.repeated
    rawOut := fun _ => rfl
    made := h.made
    rawIn := h.rawIn
    reply := h.reply
    filling := nofun
    parsed := nofun }

/-- `parse` takes the reply that came in, and returns only for the reply to the whole batch. -/
theorem Inv.parse (h : s.Inv env) : Inv env { s with batch := s.batch.parse.1 } := by
  have hreply : s.batch.rawIn = VMIMessage.empty ∨
      ∃ x ∈ s.sent, s.batch.rawIn = x.reply ∧ x.Within s.batch.namestack s.batch.request :=
    h.rawIn.imp id fun ⟨x, hx, hrest⟩ => ⟨x, List.mem_of_getLast? hx, hrest⟩
  unfold Batch.parse
  dsimp only
  by_cases hlen : s.batch.request.type.length = s.batch.rawIn.type.length
  · rw [if_neg (not_not.mpr hlen)]
    -- a batch that is being filled is longer than its reply
    have hstate : s.batch.state ≠ .filling := by
      intro hfilling
      have hlt := h.filling hfilling
      omega
    by_cases herror : s.batch.rawIn.error = some true
    · rw [if_pos herror]
      refine ⟨h.aligned, h.repeated, h.rawOut, h.made, h.rawIn, hreply, h.filling,
        fun hparsed => ?_⟩
      have hp := h.parsed hparsed
      exact absurd (hp.reply ▸ herror) hp.error
    · rw [if_neg herror]
      exact ⟨h.aligned, h.repeated, fun _ => h.rawOut hstate, h.made, h.rawIn, hreply, nofun,
        fun _ => ⟨rfl, hlen, herror⟩⟩
  · rw [if_pos hlen]
    refine ⟨h.aligned, h.repeated, h.rawOut, h.made, h.rawIn, hreply, h.filling,
      fun hparsed => ?_⟩
    have hp := h.parsed hparsed
    exact absurd (hp.reply ▸ hp.length) hlen

theorem Inv.parseIfRaw (h : s.Inv env) : Inv env { s with batch := s.batch.parseIfRaw.1 } := by
  unfold Batch.parseIfRaw
  split
  · exact h.parse
  · exact h

theorem Inv.reset (h : s.Inv env) : Inv env { s with batch := s.batch.reset } :=
  { aligned := rfl
    repeated := nofun
    rawOut := fun _ => rfl
    made := h.made
    rawIn := .inl rfl
    reply := .inl rfl
    filling := nofun
    parsed := nofun }

/-- Setting the state back leaves `raw_out` as the request. -/
theorem Inv.again (h : s.Inv env) : Inv env { s with batch := s.batch.again } := by
  unfold Batch.again
  split
  · rename_i hstate
    have hne : s.batch.state ≠ .filling := by
      rcases hstate with hstate | hstate
      all_goals
        rw [hstate]
        simp
    have hout := h.serialized
    rwa [← h.rawOut hne] at hout
  · exact h

/-- What `batch_send` sends is the request, and it is sent unless an exception is raised. -/
theorem sends_spec (h : s.Inv env) (hs : s.sends env fe = some s') :
    (∃ e, s.batch.outgoing = .error e ∧ s' = s) ∨
    (s.batch.state = .filling ∨ s.batch.state = .serialized) ∧
    ∃ w reply, processProtobuf env s.batch.request (fe.asking s.vmi) = .ok (w, reply) ∧
      s' = { batch := { s.batch with rawOut := s.batch.request, rawIn := reply,
                                     state := .resultsRaw },
             vmi := w
             sent := s.sent ++
               [⟨s.batch.namestack, s.batch.request, fe.asking s.vmi, reply⟩] } := by
  unfold sends FE.batchSend at hs
  cases hout : s.batch.outgoing with
  | error e =>
    rw [hout] at hs
    cases hs
    exact .inl ⟨e, rfl, rfl⟩
  | ok b =>
    -- serialized just now, or before
    have hb : (s.batch.state = .filling ∨ s.batch.state = .serialized) ∧
        b = { s.batch with state := .serialized, rawOut := s.batch.request } := by
      unfold Batch.outgoing at hout
      split at hout
      · rename_i hstate
        cases hout
        refine ⟨.inr hstate, ?_⟩
        rw [← h.rawOut (by rw [hstate]; simp), ← hstate]
      · split at hout
        · cases hout
          exact ⟨.inl ‹_›, rfl⟩
        · cases hout
    obtain ⟨hstate, rfl⟩ := hb
    refine .inr ⟨hstate, ?_⟩
    rw [hout] at hs
    dsimp only at hs
    cases hrun : processProtobuf env s.batch.request (fe.asking s.vmi) with
    | error e =>
      rw [hrun] at hs
      cases hs
    | ok r =>
      rw [hrun] at hs
      cases hs
      exact ⟨r.1, r.2, rfl, rfl⟩

theorem Inv.sends (h : s.Inv env) (hs : s.sends env fe = some s') : s'.Inv env := by
  rcases sends_spec h hs with ⟨-, -, rfl⟩ | ⟨-, w, reply, hrun, rfl⟩
  · exact h
  · let x : Sending G := ⟨s.batch.namestack, s.batch.request, fe.asking s.vmi, reply⟩
    have hwithin : x.Within s.batch.namestack s.batch.request :=
      ⟨List.prefix_rfl, .inl ⟨rfl, rfl⟩⟩
    refine ⟨h.aligned, h.repeated, fun _ => rfl, ?_, .inr ⟨x, ?_, rfl, hwithin⟩, ?_, nofun, nofun⟩
    · intro y hy
      rcases List.mem_append.mp hy with hy | hy
      · exact h.made y hy
      · rw [List.mem_singleton] at hy
        subst hy
        exact ⟨⟨w, hrun⟩, h.aligned, h.repeated⟩
    · simp [x]
    · exact h.reply.imp id fun ⟨y, hy, hrest⟩ => ⟨y, List.mem_append_left _ hy, hrest⟩

/-- **Every operation keeps the invariant.** -/
theorem Inv.next (h : s.Inv env) {op : BatchOp G} (hop : s.Whole op)
    (hs : s.next env fe op = some s') : s'.Inv env := by
  cases op with
  | add a =>
    cases hs
    exact h.add hop
  | serialize =>
    cases hs
    exact h.serialized
  | send => exact h.sends hs
  | parse =>
    cases hs
    exact h.parse
  | results | resultsSize =>
    cases hs
    have hparse := h.parseIfRaw
    -- the object is the one that the parse leaves, whether it returns or raises
    first | unfold Batch.results | unfold Batch.resultsSize
    rcases hp : s.batch.parseIfRaw with ⟨b, _ | e⟩
    all_goals
      rw [hp] at hparse
      exact hparse
  | reset =>
    cases hs
    exact h.reset
  | again =>
    cases hs
    exact h.again
  | elsewhere w =>
    cases hs
    exact ⟨h.aligned, h.repeated, h.rawOut, h.made, h.rawIn, h.reply, h.filling, h.parsed⟩

end BatchRun

/-- The invariant holds throughout. -/
theorem inv_of_reach (hr : Reach (BatchRun.system env fe) BatchRun.Whole s) : s.Inv env :=
  hr.invariant (BatchRun.Inv env) (fun _ h => .start h) fun _ _ _ h hop hs => h.next hop hs

/-- **`batch_send` sends the request as it stands.** In every run whose calls are whole: when
    `batch_send` returns, what the VMI partition has processed is the request, with every call
    since the last `reset`; and it raises, without sending anything, unless the object is being
    filled or has been serialized. -/
theorem batch_sends_current (hr : Reach (BatchRun.system env fe) BatchRun.Whole s)
    (hs : s.next env fe .send = some s') :
    (s.batch.state = .filling ∨ s.batch.state = .serialized) ∧
        (∃ reply, processProtobuf env s.batch.request (fe.asking s.vmi) = .ok (s'.vmi, reply) ∧
          s'.batch.rawIn = reply ∧ s'.batch.state = .resultsRaw ∧
          s'.sent = s.sent ++
            [⟨s.batch.namestack, s.batch.request, fe.asking s.vmi, reply⟩]) ∨
      ¬(s.batch.state = .filling ∨ s.batch.state = .serialized) ∧ s' = s := by
  rcases BatchRun.sends_spec (inv_of_reach hr) hs with
    ⟨e, hout, rfl⟩ | ⟨hstate, w, reply, hrun, rfl⟩
  · refine .inr ⟨?_, rfl⟩
    rintro (hstate | hstate)
    all_goals
      unfold Batch.outgoing at hout
      rw [hstate] at hout
      cases hout
  · exact .inl ⟨hstate, reply, hrun, rfl, rfl, rfl⟩

/-- The dicts that are read from the reply to a batch. -/
theorem Sending.Made.labelled {x : Sending G} (hx : x.Made env) (herr : x.reply.error ≠ some true)
    {names : List String} (hnames : x.names <+: names) {ds : List ResultDict} {e : Option PyError}
    (h : resultsFrom x.reply names x.reply.type (fun _ => 0) 0 = (ds, e)) :
    ds.length = x.reply.type.length ∧ Labelled env x.request x.world x.names ds := by
  obtain ⟨w', hrun⟩ := hx.run
  obtain ⟨more, rfl⟩ := hnames
  have hnone : x.reply.error = none := by
    obtain ⟨i, l, hreach, -⟩ := reaches_of_processProtobuf hrun
    exact hreach.error_cases.resolve_right herr
  obtain ⟨ds', hds, hlen, hlabelled⟩ :=
    resultsFrom_labelled hrun hnone hx.repeated hx.aligned more
  rw [h] at hds
  cases hds
  exact ⟨hlen, hlabelled⟩

/-- What `results` reads, when it does not raise. -/
theorem Batch.results_eq {b b' : Batch} {ds : List ResultDict} {e : Option PyError}
    (h : b.results = (b', ds, e)) (hends : e = none) :
    b.parseIfRaw = (b', none) ∧
      resultsFrom b'.reply b'.namestack b'.reply.type (fun _ => 0) 0 = (ds, e) := by
  unfold Batch.results at h
  rcases hp : b.parseIfRaw with ⟨b₁, _ | e₁⟩
  · rw [hp] at h
    dsimp only at h
    obtain ⟨hb, hread⟩ := Prod.mk.inj h
    subst hb
    exact ⟨rfl, hread⟩
  · rw [hp] at h
    cases h
    cases hends

/-- A parse that returns leaves the names and the request, and a fresh object parsed. -/
theorem Batch.parseIfRaw_eq {b b' : Batch} (h : b.parseIfRaw = (b', none)) :
    b'.namestack = b.namestack ∧ b'.request = b.request ∧
      (b.Fresh → b'.state = .resultsParsed) ∧ (¬b.Fresh → b' = b) := by
  unfold Batch.parseIfRaw at h
  split at h
  · rename_i hraw
    unfold Batch.parse at h
    dsimp only at h
    split at h
    · cases h
    · split at h
      · cases h
      · cases h
        exact ⟨rfl, rfl, fun _ => rfl, fun hfresh => absurd (.inl hraw) hfresh⟩
  · rename_i hraw
    cases h
    exact ⟨rfl, rfl, fun hfresh => hfresh.resolve_left hraw, fun _ => rfl⟩

/-- **The dicts of a batch are labelled rightly, whenever they are read.** In every state of every
    run whose calls are whole: when `results` gives its dicts without an exception, they are those
    of a batch that was sent, whose names are the first names of the object, and each has the name
    of a call and the values of the reply that was produced for that call.  After `batch_send` and
    `parse` they are those of the last batch, which is the whole object; in between calls are
    added they may be old ones, provided the reply that they are read from has no error. -/
theorem results_labelled (hr : Reach (BatchRun.system env fe) BatchRun.Whole s)
    {b : Batch} {ds : List ResultDict} (h : s.batch.results = (b, ds, none))
    (herr : s.batch.Fresh ∨ s.batch.reply.error ≠ some true) :
    (s.batch.Fresh → ds.length = s.batch.namestack.length) ∧
    (ds = [] ∨ ∃ x ∈ s.sent, x.names <+: s.batch.namestack ∧
      Labelled env x.request x.world x.names ds ∧
      (s.batch.Fresh → s.sent.getLast? = some x ∧ x.request = s.batch.request)) := by
  obtain ⟨hparse, hread⟩ := Batch.results_eq h rfl
  obtain ⟨hnames, hrequest, hfresh, hstale⟩ := Batch.parseIfRaw_eq hparse
  have hinv := (inv_of_reach hr).parseIfRaw
  rw [hparse] at hinv
  have haligned : b.namestack.length = b.request.type.length := hinv.aligned
  rw [← hnames, ← hrequest]
  by_cases hf : s.batch.Fresh
  · have hparsed : b.Parsed := hinv.parsed (hfresh hf)
    rcases hinv.rawIn with hempty | ⟨x, hlast, hraw, hwithin⟩
    -- nothing has come in: the object is empty
    · have hreply : b.reply = VMIMessage.empty := hparsed.reply.trans hempty
      have hlen := hparsed.length
      rw [hreply] at hlen hread
      cases hread
      exact ⟨fun _ => (haligned.trans hlen).symm, .inl rfl⟩
    · have hmem := List.mem_of_getLast? hlast
      have hreply : b.reply = x.reply := hparsed.reply.trans hraw
      have hlength := hparsed.length
      have herror := hparsed.error
      rw [hreply] at hlength herror hread
      obtain ⟨hlen, hlabelled⟩ := (hinv.made x hmem).labelled herror hwithin.names hread
      -- the reply has a type for each call of the object, so that all of them were sent
      have hall : x.request = b.request := by
        obtain ⟨w', hrun⟩ := (hinv.made x hmem).run
        have hle := length_type_le hrun
        rcases hwithin.all with ⟨heq, -⟩ | hlt
        · exact heq
        · have hlt : x.request.type.length < b.request.type.length := hlt
          omega
      refine ⟨fun _ => ?_, .inr ⟨x, hmem, hwithin.names, hlabelled, fun _ => ⟨hlast, hall⟩⟩⟩
      rw [hlen, haligned, hlength]
  · have hb : b = s.batch := hstale hf
    refine ⟨fun h => absurd h hf, ?_⟩
    rcases hinv.reply with hempty | ⟨x, hmem, hreply, hwithin⟩
    · have hempty : b.reply = VMIMessage.empty := hempty
      rw [hempty] at hread
      cases hread
      exact .inl rfl
    · have hreply : b.reply = x.reply := hreply
      have herror : x.reply.error ≠ some true := by
        rw [← hreply, hb]
        exact herr.resolve_left hf
      rw [hreply] at hread
      obtain ⟨-, hlabelled⟩ := (hinv.made x hmem).labelled herror hwithin.names hread
      exact .inr ⟨x, hmem, hwithin.names, hlabelled, fun h => absurd h hf⟩

end Steps

/-! ### A run -/

/-- Nothing has been added yet. -/
theorem nothingAdded_reach : Reach (BatchRun.system echoEnv ⟨[1], ∅, ∅, 0, false⟩) BatchRun.Whole
    ({ vmi := World.initial () } : BatchRun Unit) := .init ⟨rfl, rfl⟩

/-- A read has been added. -/
def readAdded : BatchRun Unit := { batch := (Batch.new.add wellNamed).1, vmi := World.initial () }

theorem readAdded_reach :
    Reach (BatchRun.system echoEnv ⟨[1], ∅, ∅, 0, false⟩) BatchRun.Whole readAdded := by
  have haddable : Batch.new.toMembers.Addable wellNamed := Members.add_none_iff.mp (by decide)
  exact nothingAdded_reach.step (a := .add wellNamed) (.inl haddable) rfl

/-- It is sent. -/
theorem batch_sends_current_readAdded : ∃ s' : BatchRun Unit, ∃ reply,
    readAdded.next echoEnv ⟨[1], ∅, ∅, 0, false⟩ .send = some s' ∧ s'.batch.rawIn = reply ∧
      s'.sent = [⟨["b"], readAdded.batch.request, { readAdded.vmi with scratchIdent := [1] },
        reply⟩] := by
  rcases batch_sends_current readAdded_reach rfl with ⟨-, reply, -, hraw, -, hsent⟩ | ⟨hstate, -⟩
  · exact ⟨_, reply, rfl, hraw, hsent⟩
  · exact absurd (.inl rfl) hstate

/-- A read of a pointer. -/
def pointerRead : AddArgs :=
  { name := "a", msgtype := .request (.readAddr .pa), argv := [(.paddr, .u64 4096)] }

/-- A read eight bytes above the address that was read. -/
def readAbove : AddArgs :=
  { name := "b", msgtype := .request (.readNum .w64 .pa), argv := [(.paddr, .u64 8)]
    linkname := some "a", linkfield := some .result, linktgt := some .paddr, linkopr := some 1 }

/-- Both have been added. -/
def linkAdded : BatchRun Unit :=
  { batch := ((Batch.new.add pointerRead).1.add readAbove).1, vmi := World.initial () }

theorem linkAdded_reach :
    Reach (BatchRun.system echoEnv ⟨[1], ∅, ∅, 0, false⟩) BatchRun.Whole linkAdded := by
  have hfirst : Batch.new.toMembers.Addable pointerRead := Members.add_none_iff.mp (by decide)
  have hsecond : (Batch.new.add pointerRead).1.toMembers.Addable readAbove :=
    Members.add_none_iff.mp (by decide)
  have hread : Reach (BatchRun.system echoEnv ⟨[1], ∅, ∅, 0, false⟩) BatchRun.Whole
      ({ batch := (Batch.new.add pointerRead).1, vmi := World.initial () } : BatchRun Unit) :=
    nothingAdded_reach.step (a := .add pointerRead) (.inl hfirst) rfl
  exact hread.step (a := .add readAbove) (.inl hsecond) rfl

/-- Their dicts are labelled, and the second call has read at 4096 + 8. -/
theorem results_labelled_linkAdded : ∃ (s : BatchRun Unit) (b : Batch) (ds : List ResultDict),
    linkAdded.next echoEnv ⟨[1], ∅, ∅, 0, false⟩ .send = some s ∧
    s.batch.results = (b, ds, none) ∧ ds.length = 2 ∧
    ds.map (fun d => (d .name, d .result)) =
      [(some (.label "a"), some (.field (.u64 4096))),
        (some (.label "b"), some (.field (.u64 4104)))] ∧
    (ds = [] ∨ ∃ x ∈ s.sent, x.names <+: ["a", "b"] ∧
      Labelled echoEnv x.request x.world x.names ds) := by
  obtain ⟨s, hs⟩ : ∃ s, linkAdded.next echoEnv ⟨[1], ∅, ∅, 0, false⟩ .send = some s := ⟨_, rfl⟩
  have hsent : Reach (BatchRun.system echoEnv ⟨[1], ∅, ∅, 0, false⟩) BatchRun.Whole s :=
    linkAdded_reach.step (a := .send) trivial hs
  cases hs
  obtain ⟨hlen, hds⟩ := results_labelled hsent rfl (.inl (.inl rfl))
  exact ⟨_, _, _, rfl, rfl, hlen (.inl rfl), by decide +kernel,
    hds.imp id fun ⟨x, hx, hnames, hlabelled, _⟩ => ⟨x, hx, hnames, hlabelled⟩⟩

end Furnace.App
