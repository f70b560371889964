import Furnace.App.BatchLife
import Furnace.App.Pipeline
import Furnace.App.TaskWalk

namespace Furnace.App

open Furnace.Proto Furnace.Lib Furnace.Vmi

/-!
# A process list, read batch by batch

The app `app_pslist_batch` makes the same walk as `app_pslist_single` with one message for each
entry: it resets its batch object, adds the three reads of the entry, sends it, and finds the next
entry among the results.

* `doBatchPslist` — the walk; the dicts that it looks at are kept as a ghost.
* `doBatchPslist_runs` — **the batches read what the single calls read**, entry by entry, and the
  one walk raises where the other does.
-/

variable {G : Type}

/-! ### The app -/

/-- The members of the app that the walk uses, and as a ghost the dicts of each round. -/
structure BatchPsList where
  calls : List ℕ := []
  procs : List ℕ := []
  msgs : List ℕ := []
  seen : List (List ResultDict) := []

/-- `o.add(name, msgtype, {"vaddr": vaddr, "pid": 0})`: protobuf refuses a number that the field
    cannot take. -/
def addRead (name : String) (c : Call) (vaddr : ℤ) (o : Batch) : AppM G BatchPsList Batch :=
  match checkValue .uint64 (.int vaddr) with
  | .error e => throw e
  | .ok v =>
    match o.add { name := name, msgtype := .request c, argv := [(.vaddr, v), (.pid, .i32 0)] } with
    | (o, none) => pure o
    | (_, some e) => throw e

/-- `fe.batch_send(o)`. -/
def sendBatch (env : Env G) (o : Batch) : AppM G BatchPsList Batch := .ofFun fun t => do
  let (w, o, e) ← t.fe.batchSend env o t.vmi
  .ok (match e with
    | none => .ok o
    | some e => .error e, { t with vmi := w })

/-- `if r["name"] == "3": cur = r["result"]`; a result that is not a number raises as soon as it
    is counted with. -/
def readNext (cur : ℤ) (r : ResultDict) : Except PyError ℤ :=
  if r .name = some (.label "3") then
    match r .result with
    | some (.field (.u64 v)) => .ok v.toNat
    | some _ => .error .typeError
    | none => .error .keyError
  else .ok cur

/-- `for r in o.results()`. -/
def readResults (cur : ℤ) (o : Batch) : AppM G BatchPsList (Batch × ℤ) :=
  match o.results with
  | (o, ds, e) => do
    setSelf fun s => { s with seen := s.seen ++ [ds] }
    match ds.foldlM readNext cur, e with
    | .error e, _ => throw e
    | .ok _, some e => throw e
    | .ok cur, none => pure (o, cur)

/-- One round up to the comparison. -/
def batchRound (env : Env G) (lk : TaskLookups) (cur : ℤ) (o : Batch) :
    AppM G BatchPsList (Batch × ℤ) := do
  let o ← addRead "1" (.readStr .va) (cur + lk.nameOffset.toNat - lk.tasksOffset.toNat) o.reset
  let o ← addRead "2" (.readNum .w32 .va) (cur + lk.pidOffset.toNat - lk.tasksOffset.toNat) o
  let o ← addRead "3" (.readAddr .va) cur o
  let o ← sendBatch env o
  readResults cur o

/-- The loop, with `left` rounds to go after the next: the number of rounds. -/
def batchLoop (env : Env G) (lk : TaskLookups) : ℕ → ℤ → Batch → ℕ → AppM G BatchPsList ℕ
  | 0, cur, o, rounds => do
    let _ ← batchRound env lk cur o
    -- `i > maxi`
    pure (rounds + 1)
  | left + 1, cur, o, rounds => do
    let r ← batchRound env lk cur o
    if low48 r.2 = lk.listHead then pure (rounds + 1)
    else batchLoop env lk left r.2 r.1 (rounds + 1)

/-- `do_batch_pslist`. -/
def doBatchPslist (env : Env G) (lk : TaskLookups) (pause : Bool) : AppM G BatchPsList PUnit := do
  askIf env pause .pauseVm
  let rounds ← batchLoop env lk maxi lk.listHead .new 0
  setSelf fun s => { s with calls := s.calls ++ [3 * rounds], procs := s.procs ++ [rounds],
                            msgs := s.msgs ++ [rounds] }
  askIf env pause .resumeVm

/-! ### One batch -/

/-- The dicts of a round report the entry `a`: its name, its pid and the pointer in it. -/
def ReportsEntry (lk : TaskLookups) (rd : Readings) (ds : List ResultDict) (a : UInt64) : Prop :=
  ∃ d₁ d₂ d₃, ds = [d₁, d₂, d₃] ∧
    d₁ .name = some (.label "1") ∧ d₂ .name = some (.label "2") ∧ d₃ .name = some (.label "3") ∧
    d₁ .result = some (.field (.str (rd.string (addressOf (lk.nameAt a.toNat))))) ∧
    d₂ .result = some (.field (.u32 (rd.word (addressOf (lk.pidAt a.toNat))))) ∧
    d₃ .result = some (.field (.u64 (rd.pointer a)))

section Round

variable {env : Env G} {t : Tenant G BatchPsList} {rd : Readings} {held : G → Prop}
  {lk : TaskLookups}

/-- The arguments of a read in a batch. -/
def readAddition (name : String) (c : Call) (a : UInt64) : AddArgs :=
  { name := name, msgtype := .request c, argv := [(.vaddr, .u64 a), (.pid, .i32 0)] }

/-- What an added read does to the object. -/
theorem add_readAddition {c : Call} (hc : c ∈ readCalls) (o : Batch) (name : String) (a : UInt64) :
    o.add (readAddition name c a) = ({ o with
      request := o.request.addCall c (readAt a)
      namemap := Function.update o.namemap name (some c.num)
      namestack := o.namestack ++ [name]
      order := o.order ++ [c.num]
      state := .filling }, none) := by
  rcases mem_readCalls.mp hc with rfl | rfl | rfl <;> rfl

theorem addRead_runs {c : Call} (hc : c ∈ readCalls) {n : ℤ} (hn : IsAddress n) (o : Batch)
    (name : String) :
    Runs (addRead name c n o) t (.ok (o.add (readAddition name c (addressOf n))).1) t := by
  have hvalue : checkValue .uint64 (.int n) = .ok (.u64 (addressOf n)) := if_pos hn
  unfold addRead
  rw [hvalue]
  have hadd := add_readAddition hc o name (addressOf n)
  unfold readAddition at hadd ⊢
  dsimp only
  rw [hadd]
  exact runs_pure _ _

theorem addRead_raises {n : ℤ} (hn : ¬IsAddress n) (o : Batch) (name : String) (c : Call) :
    Runs (addRead name c n o) t (.error .valueError) t := by
  have hvalue : checkValue .uint64 (.int n) = .error .valueError := if_neg hn
  unfold addRead
  rw [hvalue]
  exact runs_throw _ _

/-- The batch of a round. -/
def entryBatch (lk : TaskLookups) (a : UInt64) (o : Batch) : Batch :=
  (((o.reset.add (readAddition "1" (.readStr .va) (addressOf (lk.nameAt a.toNat)))).1.add
    (readAddition "2" (.readNum .w32 .va) (addressOf (lk.pidAt a.toNat)))).1.add
      (readAddition "3" (.readAddr .va) a)).1

/-- The requests of a round. -/
def entryRequests (lk : TaskLookups) (a : UInt64) : List (ℕ × Msg) :=
  tripleRequests (readAt (addressOf (lk.nameAt a.toNat))) (readAt (addressOf (lk.pidAt a.toNat)))
    (readAt a)

theorem entryBatch_request (lk : TaskLookups) (a : UInt64) (o : Batch) :
    HoldsRequests (entryBatch lk a o).request (entryRequests lk a) := by
  have h₁ := holdsRequests_empty.addCall (c := .readStr .va) rfl
    (readAt (addressOf (lk.nameAt a.toNat)))
  have h₂ := h₁.addCall (c := .readNum .w32 .va) rfl (readAt (addressOf (lk.pidAt a.toNat)))
  exact h₂.addCall (c := .readAddr .va) rfl (readAt a)

/-- The operations of a round. -/
def entryOps (lk : TaskLookups) (a : UInt64) : List ExtOp :=
  [.readStr (.va (addressOf (lk.nameAt a.toNat)) 0),
    .readNum .w32 (.va (addressOf (lk.pidAt a.toNat)) 0), .readAddr (.va a 0)]

/-- **The VMI partition answers the batch of a round** with what the three reads give. -/
theorem entryBatch_answered (hheld : rd.HeldBy env held) {w : World G} (hg : held w.guest)
    (lk : TaskLookups) (a : UInt64) (o : Batch) :
    ∃ w' out str st₁ st₂,
      processProtobuf env (entryBatch lk a o).request w = .ok (w', out) ∧ held w'.guest ∧
      w'.ops = w.ops ++ entryOps lk a ∧ out.error = none ∧
      str.getD [] = rd.string (addressOf (lk.nameAt a.toNat)) ∧
      ∃ l, Prefix (entryBatch lk a o).request 3 l out
        [((Call.readStr .va).replyNum, stringReply str),
          ((Call.readNum .w32 .va).replyNum,
            resultWith (.u32 (rd.word (addressOf (lk.pidAt a.toNat)))) st₁),
          ((Call.readAddr .va).replyNum, resultWith (.u64 (rd.pointer a)) st₂)] := by
  let nameOp : ExtOp := .readStr (.va (addressOf (lk.nameAt a.toNat)) 0)
  let pidOp : ExtOp := .readNum .w32 (.va (addressOf (lk.pidAt a.toNat)) 0)
  let w₁ := (w.exec env nameOp).2
  let w₂ := (w₁.exec env pidOp).2
  have hg₁ : held w₁.guest := (hheld.string _ _ hg).2
  have hg₂ : held w₂.guest := (hheld.word _ _ hg₁).2
  have hbody₁ := readStrBody_answers env
    (show location .va (readAt (addressOf (lk.nameAt a.toNat))) = some _ from rfl) w
  have hbody₂ := read32Body_answers env
    (show location .va (readAt (addressOf (lk.pidAt a.toNat))) = some _ from rfl) w₁
  have hbody₃ := readAddrBody_answers env
    (show location .va (readAt a) = some _ from rfl) w₂
  rw [(hheld.word _ _ hg₁).1] at hbody₂
  rw [(hheld.pointer _ _ hg₂).1] at hbody₃
  have hreqs := entryBatch_request lk a o
  have hstart : Arrives env (entryBatch lk a o).request w ([] : List (ℕ × Msg)).length {} w _ [] :=
    Arrives.start env _ w
  obtain ⟨out₁, h₁⟩ := hstart.linked (c := .readStr .va) hreqs rfl rfl
    (linkedRequest_readAt _ _ _ _ _) hbody₁
  obtain ⟨out₂, h₂⟩ := h₁.linked (c := .readNum .w32 .va) hreqs rfl rfl
    (linkedRequest_readAt _ _ _ _ _) hbody₂
  obtain ⟨out₃, h₃⟩ := h₂.linked (c := .readAddr .va) hreqs rfl rfl
    (linkedRequest_readAt _ _ _ _ _) hbody₃
  have hlen : (entryBatch lk a o).request.type.length = 3 := by
    rw [hreqs.type]
    rfl
  refine ⟨_, out₃, _, _, _, h₃.processProtobuf hlen.symm (by rw [hlen]; decide),
    (hheld.pointer _ _ hg₂).2, ?_, h₃.isPrefix.clean.1, (hheld.string _ _ hg).1, _, h₃.isPrefix⟩
  simp [entryOps, w₂, w₁, nameOp, pidOp]

/-- The dicts of a reply to the whole object. -/
theorem Batch.results_answered {o : Batch} {out : VMIMessage}
    (hlen : o.request.type.length = out.type.length) (herr : out.error = none)
    (hraw : o.state = .resultsRaw) (hin : o.rawIn = out) :
    o.results = ({ o with reply := out, state := .resultsParsed },
      resultsFrom out o.namestack out.type (fun _ => 0) 0) := by
  subst hin
  unfold Batch.results Batch.parseIfRaw Batch.parse
  dsimp only
  rw [if_pos hraw, if_neg (not_not.mpr hlen), herr]
  rfl

/-- The dicts of a round, from the replies to its reads. -/
theorem reportsEntry_of_answers {a : UInt64} {msgIn out : VMIMessage} {l : LinkState}
    {str : Option Bytes} {st₁ st₂ : Status}
    (hstr : str.getD [] = rd.string (addressOf (lk.nameAt a.toNat)))
    (hp : Prefix msgIn 3 l out
      [((Call.readStr .va).replyNum, stringReply str),
        ((Call.readNum .w32 .va).replyNum,
          resultWith (.u32 (rd.word (addressOf (lk.pidAt a.toNat)))) st₁),
        ((Call.readAddr .va).replyNum, resultWith (.u64 (rd.pointer a)) st₂)]) :
    ∃ ds, resultsFrom out ["1", "2", "3"] out.type (fun _ => 0) 0 = (ds, none) ∧
      ReportsEntry lk rd ds a := by
  have hcalls : ∀ x ∈ [((Call.readStr .va).replyNum, stringReply str),
      ((Call.readNum .w32 .va).replyNum,
        resultWith (.u32 (rd.word (addressOf (lk.pidAt a.toNat)))) st₁),
      ((Call.readAddr .va).replyNum, resultWith (.u64 (rd.pointer a)) st₂)],
      ∃ c : Call, x.1 = c.replyNum ∧ isRepeated c.replyNum = true := by
    intro x hx
    simp only [List.mem_cons, List.not_mem_nil, or_false] at hx
    rcases hx with rfl | rfl | rfl
    · exact ⟨.readStr .va, rfl, rfl⟩
    · exact ⟨.readNum .w32 .va, rfl, rfl⟩
    · exact ⟨.readAddr .va, rfl, rfl⟩
  have hgen := @resultsFrom_eq out ["1", "2", "3"] _ (fun t m hmem => by
    obtain ⟨c, hc, hrep⟩ := hcalls (t, m) hmem
    have hc : t = c.replyNum := hc
    exact hp.sub t (by rw [hc]; exact hrep)) hcalls rfl [] _ rfl
  rw [← hp.type] at hgen
  refine ⟨_, hgen, _, _, _, rfl, ?_⟩
  have hshows₁ := resultDict_shows "1" (.readStr .va) (stringReply str)
  have hresult : (stringReply str).get ⟨.result, 1, .string⟩ = .str (str.getD []) := by
    cases str <;> rfl
  refine ⟨hshows₁.label, rfl, rfl, ?_, rfl, rfl⟩
  have hfield := hshows₁.field ⟨.result, 1, .string⟩ (by decide)
  rw [hresult, hstr] at hfield
  exact hfield

/-- The next entry is found among the dicts of a round. -/
theorem foldlM_readNext {ds : List ResultDict} {a : UInt64} (h : ReportsEntry lk rd ds a)
    (cur : ℤ) : ds.foldlM readNext cur = .ok (rd.pointer a).toNat := by
  obtain ⟨d₁, d₂, d₃, rfl, hname₁, hname₂, hname₃, -, -, hnext⟩ := h
  have hskip : ∀ {d : ResultDict} {name : String}, d .name = some (.label name) → name ≠ "3" →
      readNext cur d = .ok cur := by
    intro d name hd hne
    unfold readNext
    rw [hd, if_neg]
    simpa using hne
  have hlast : readNext cur d₃ = .ok (rd.pointer a).toNat := by
    unfold readNext
    rw [hname₃, if_pos rfl, hnext]
  simp only [List.foldlM_cons, List.foldlM_nil, hskip hname₁ (by decide),
    hskip hname₂ (by decide), ok_bind, hlast]
  rfl

/-- **One round** reads one entry. -/
theorem batchRound_runs (hheld : rd.HeldBy env held) (hg : held t.vmi.guest) {cur : UInt64}
    (hcur : lk.Reaches cur) (o : Batch) :
    ∃ t' o' ds, Runs (batchRound env lk cur.toNat o) t (.ok (o', (rd.pointer cur).toNat)) t' ∧
      Looked held t t' ∧ t'.self = { t.self with seen := t.self.seen ++ [ds] } ∧
      ReportsEntry lk rd ds cur := by
  obtain ⟨hpid, hname⟩ := hcur
  have hnameAt : (cur.toNat : ℤ) + lk.nameOffset.toNat - lk.tasksOffset.toNat =
      lk.nameAt cur.toNat := by
    unfold TaskLookups.nameAt
    omega
  have hpidAt : (cur.toNat : ℤ) + lk.pidOffset.toNat - lk.tasksOffset.toNat =
      lk.pidAt cur.toNat := by
    unfold TaskLookups.pidAt
    omega
  -- the batch is made, and answered
  have hadd₁ := addRead_runs (t := t) (c := .readStr .va) (by decide) hname o.reset "1"
  have hadd₂ := addRead_runs (t := t) (c := .readNum .w32 .va) (by decide) hpid
    (o.reset.add (readAddition "1" (.readStr .va) (addressOf (lk.nameAt cur.toNat)))).1 "2"
  have hadd₃ := addRead_runs (t := t) (c := .readAddr .va) (by decide) (isAddress_toNat cur)
    ((o.reset.add (readAddition "1" (.readStr .va) (addressOf (lk.nameAt cur.toNat)))).1.add
      (readAddition "2" (.readNum .w32 .va) (addressOf (lk.pidAt cur.toNat)))).1 "3"
  rw [addressOf_toNat] at hadd₃
  obtain ⟨w', out, str, st₁, st₂, hrun, hg', hops, herr, hstr, l, hp⟩ :=
    entryBatch_answered hheld (w := t.fe.asking t.vmi) hg lk cur o
  let sent : Batch := { entryBatch lk cur o with
    rawOut := (entryBatch lk cur o).request, rawIn := out, state := .resultsRaw }
  have hsend : Runs (sendBatch env (entryBatch lk cur o)) t (.ok sent) { t with vmi := w' } := by
    rw [sendBatch, runs_ofFun]
    unfold FE.batchSend
    have hout : (entryBatch lk cur o).outgoing = .ok (entryBatch lk cur o).serialize := rfl
    rw [hout]
    show (processProtobuf env (entryBatch lk cur o).request _ >>= _) >>= _ = _
    rw [hrun]
    rfl
  -- the dicts of the reply
  obtain ⟨ds, hds, hreports⟩ := reportsEntry_of_answers hstr hp
  have hlen : sent.request.type.length = out.type.length := by
    rw [hp.type]
    show (entryBatch lk cur o).request.type.length = _
    rw [(entryBatch_request lk cur o).type]
    rfl
  have hresults := Batch.results_answered hlen herr rfl rfl
  have hds' : resultsFrom out sent.namestack out.type (fun _ => 0) 0 = (ds, none) := hds
  rw [hds'] at hresults
  let t' : Tenant G BatchPsList :=
    { t with vmi := w', self := { t.self with seen := t.self.seen ++ [ds] } }
  have hread : Runs (readResults cur.toNat sent) { t with vmi := w' }
      (.ok ({ sent with reply := out, state := .resultsParsed }, (rd.pointer cur).toNat)) t' := by
    unfold readResults
    rw [hresults]
    dsimp only
    rw [foldlM_readNext hreports]
    exact Runs.bind (runs_modify _ _) (runs_pure _ _)
  refine ⟨t', { sent with reply := out, state := .resultsParsed }, ds, ?_,
    ⟨hg', rfl, entryOps lk cur, hops, ?_⟩, rfl, hreports⟩
  · unfold batchRound
    rw [hnameAt, hpidAt]
    exact hadd₁.bind (hadd₂.bind (hadd₃.bind (hsend.bind hread)))
  · intro op hop
    simp only [entryOps, List.mem_cons, List.not_mem_nil, or_false] at hop
    rcases hop with rfl | rfl | rfl <;> trivial

/-- A round with an address outside the address space raises before it sends anything. -/
theorem batchRound_raises {cur : ℤ}
    (hcur : ¬((IsAddress (lk.pidAt cur) ∧ IsAddress (lk.nameAt cur)) ∧ IsAddress cur)) (o : Batch) :
    Runs (batchRound env lk cur o) t (.error .valueError) t := by
  have hnameAt : cur + lk.nameOffset.toNat - lk.tasksOffset.toNat = lk.nameAt cur := by
    unfold TaskLookups.nameAt
    omega
  have hpidAt : cur + lk.pidOffset.toNat - lk.tasksOffset.toNat = lk.pidAt cur := by
    unfold TaskLookups.pidAt
    omega
  unfold batchRound
  rw [hnameAt, hpidAt]
  by_cases hname : IsAddress (lk.nameAt cur)
  · refine (addRead_runs (by decide) hname _ _).bind ?_
    by_cases hpid : IsAddress (lk.pidAt cur)
    · refine (addRead_runs (by decide) hpid _ _).bind ?_
      exact Runs.bind_raises (addRead_raises (fun h => hcur ⟨⟨hpid, hname⟩, h⟩) _ _ _)
    · exact Runs.bind_raises (addRead_raises hpid _ _ _)
  · exact Runs.bind_raises (addRead_raises hname _ _ _)

/-- What the loop comes to, from an entry on. -/
def LoopReads (env : Env G) (rd : Readings) (held : G → Prop) (lk : TaskLookups) (left : ℕ)
    (cur : UInt64) (o : Batch) (rounds : ℕ) (t : Tenant G BatchPsList) (es : List UInt64) : Prop :=
  ∃ t' dss, Runs (batchLoop env lk left cur.toNat o rounds) t
      (if lk.reached es = es then .ok (rounds + es.length) else .error .valueError) t' ∧
    Looked held t t' ∧ t'.self = { t.self with seen := t.self.seen ++ dss } ∧
    List.Forall₂ (ReportsEntry lk rd) dss (lk.reached es)

/-- The loop ends at an entry that reaches outside the address space. -/
theorem batchLoop_raises (hg : held t.vmi.guest) {cur : UInt64} (hcur : ¬lk.Reaches cur)
    (left : ℕ) (o : Batch) (rounds : ℕ) (rest : List UInt64) :
    LoopReads env rd held lk left cur o rounds t (cur :: rest) := by
  have hround : Runs (batchRound env lk cur.toNat o) t (.error .valueError) t :=
    batchRound_raises (fun h => hcur h.1) o
  unfold LoopReads
  rw [lk.reached_cons_of_not hcur]
  refine ⟨t, [], ?_, .refl hg, by simp, .nil⟩
  cases left with
  | zero => exact Runs.bind_raises hround
  | succ left => exact Runs.bind_raises hround

/-- **The loop** reads the entries that it reaches, and returns if these are all. -/
theorem batchLoop_runs (hheld : rd.HeldBy env held) (hg : held t.vmi.guest)
    (lk : TaskLookups) (left : ℕ) (cur : UInt64) (o : Batch) (rounds : ℕ) :
    LoopReads env rd held lk left cur o rounds t (lk.visitedFrom rd left cur) := by
  induction left generalizing cur o rounds t with
  | zero =>
    by_cases hcur : lk.Reaches cur
    · obtain ⟨t', o', ds, hrun, hlook, hself, hreports⟩ := batchRound_runs hheld hg hcur o
      unfold TaskLookups.visitedFrom LoopReads
      rw [visit, lk.reached_cons hcur, lk.reached_nil, if_pos rfl]
      exact ⟨t', [ds], hrun.bind (runs_pure _ _), hlook, hself, .cons hreports .nil⟩
    · exact batchLoop_raises hg hcur 0 o rounds []
  | succ left ih =>
    by_cases hcur : lk.Reaches cur
    · obtain ⟨t₁, o₁, ds, hrun, hlook, hself, hreports⟩ := batchRound_runs hheld hg hcur o
      unfold TaskLookups.visitedFrom LoopReads
      by_cases hhead : low48 (rd.pointer cur).toNat = lk.listHead
      · have hstop : lk.isHead (rd.pointer cur) = true := decide_eq_true hhead
        rw [visit_succ_of_stop hstop, lk.reached_cons hcur, lk.reached_nil, if_pos rfl]
        refine ⟨t₁, [ds], hrun.bind ?_, hlook, hself, .cons hreports .nil⟩
        dsimp only
        rw [if_pos hhead]
        exact runs_pure _ _
      · have hgo : ¬lk.isHead (rd.pointer cur) = true := by simpa [TaskLookups.isHead] using hhead
        obtain ⟨t', dss, hrest, hlook', hself', hreports'⟩ :=
          ih (t := t₁) hlook.held (rd.pointer cur) o₁ (rounds + 1)
        rw [visit_succ_of_not_stop hgo, lk.reached_cons hcur]
        refine ⟨t', ds :: dss, hrun.bind ?_, hlook.trans hlook', ?_, .cons hreports hreports'⟩
        · dsimp only
          rw [if_neg hhead]
          simp only [List.cons.injEq, true_and, List.length_cons]
          rw [show rounds + ((visit rd.pointer lk.isHead left (rd.pointer cur)).length + 1) =
            rounds + 1 + (visit rd.pointer lk.isHead left (rd.pointer cur)).length by omega]
          exact hrest
        · rw [hself', hself]
          simp
    · obtain ⟨rest, hrest⟩ := visit_eq_cons rd.pointer lk.isHead (left + 1) cur
      unfold TaskLookups.visitedFrom
      rw [hrest]
      exact batchLoop_raises hg hcur _ o rounds rest

/-- **What the walk by batches does**, on every guest that holds still once it is paused: it reads
    the same entries as the walk by single calls does, one batch for each. -/
theorem doBatchPslist_runs (hheld : rd.HeldBy env held) (pause : Bool)
    (hg : held (t.afterIf env pause .pause).vmi.guest) (lk : TaskLookups) :
    ∃ t' reads dss, (∀ op ∈ reads, IsRead op) ∧ t'.self.seen = t.self.seen ++ dss ∧
      List.Forall₂ (ReportsEntry lk rd) dss (lk.listed rd) ∧
      (lk.Walkable rd → Runs (doBatchPslist env lk pause) t (.ok .unit) t' ∧
        t'.self.calls = t.self.calls ++ [3 * (lk.visited rd).length] ∧
        t'.self.procs = t.self.procs ++ [(lk.visited rd).length] ∧
        t'.self.msgs = t.self.msgs ++ [(lk.visited rd).length] ∧
        t'.vmi.ops = t.vmi.ops ++ (if pause then [.pause] else []) ++ reads ++
          if pause then [.resume] else []) ∧
      (¬lk.Walkable rd → Runs (doBatchPslist env lk pause) t (.error .valueError) t' ∧
        t'.self.calls = t.self.calls ∧ t'.self.procs = t.self.procs ∧
        t'.self.msgs = t.self.msgs ∧
        t'.vmi.ops = t.vmi.ops ++ (if pause then [.pause] else []) ++ reads) := by
  have hpause := askIf_runs (pauseVm_runs env t) pause
  generalize ht₁ : t.afterIf env pause .pause = t₁ at hpause hg
  have hself₁ : t₁.self = t.self := by rw [← ht₁, afterIf_self]
  have hops₁ : t₁.vmi.ops = t.vmi.ops ++ if pause then [.pause] else [] := by
    rw [← ht₁, afterIf_ops]
  by_cases hhead : IsAddress lk.listHead
  · obtain ⟨t₂, dss, hloop, hlook, hself₂, hreports⟩ :=
      batchLoop_runs hheld hg lk maxi (addressOf lk.listHead) .new 0
    rw [toNat_addressOf hhead] at hloop
    obtain ⟨reads, hops, hreads⟩ := hlook.reads
    have hlisted : lk.listed rd = lk.reached (lk.visited rd) := if_pos hhead
    have hseen : t₂.self.seen = t.self.seen ++ dss := by rw [hself₂, hself₁]
    by_cases hwalk : lk.Walkable rd
    · have hall : lk.reached (lk.visitedFrom rd maxi (addressOf lk.listHead)) =
          lk.visitedFrom rd maxi (addressOf lk.listHead) :=
        (lk.reached_eq_iff _).mpr hwalk.entries
      rw [if_pos hall, Nat.zero_add] at hloop
      let n := (lk.visited rd).length
      let t₃ : Tenant G BatchPsList := { t₂ with self := { t₂.self with
        calls := t₂.self.calls ++ [3 * n], procs := t₂.self.procs ++ [n]
        msgs := t₂.self.msgs ++ [n] } }
      have hresume := askIf_runs (resumeVm_runs env t₃) pause
      refine ⟨t₃.afterIf env pause .resume, reads, dss, hreads, ?_, hlisted ▸ hreports,
        fun _ => ⟨?_, ?_, ?_, ?_, ?_⟩, fun h => absurd hwalk h⟩
      · rw [afterIf_self]
        exact hseen
      · exact hpause.bind (hloop.bind (Runs.bind (runs_modify _ _) hresume))
      · rw [afterIf_self, ← hself₁]
        show t₂.self.calls ++ _ = _
        rw [hself₂]
      · rw [afterIf_self, ← hself₁]
        show t₂.self.procs ++ _ = _
        rw [hself₂]
      · rw [afterIf_self, ← hself₁]
        show t₂.self.msgs ++ _ = _
        rw [hself₂]
      · rw [afterIf_ops]
        show t₂.vmi.ops ++ _ = _
        rw [hops, hops₁]
    · have hnot : ¬lk.reached (lk.visitedFrom rd maxi (addressOf lk.listHead)) =
          lk.visitedFrom rd maxi (addressOf lk.listHead) :=
        fun h => hwalk ⟨hhead, (lk.reached_eq_iff _).mp h⟩
      rw [if_neg hnot] at hloop
      refine ⟨t₂, reads, dss, hreads, hseen, hlisted ▸ hreports, fun h => absurd h hwalk,
        fun _ => ⟨hpause.bind (Runs.bind_raises hloop), ?_, ?_, ?_, ?_⟩⟩
      · rw [hself₂, hself₁]
      · rw [hself₂, hself₁]
      · rw [hself₂, hself₁]
      · rw [hops, hops₁]
  -- the head of the list is beyond all addresses
  · have hwalk : ¬lk.Walkable rd := fun h => hhead h.head
    have hlisted : lk.listed rd = [] := if_neg hhead
    have hround : Runs (batchRound env lk lk.listHead .new) t₁ (.error .valueError) t₁ :=
      batchRound_raises (fun h => hhead h.2) .new
    refine ⟨t₁, [], [], nofun, by rw [hself₁, List.append_nil], hlisted ▸ .nil,
      fun h => absurd h hwalk,
      fun _ => ⟨hpause.bind (Runs.bind_raises (Runs.bind_raises hround)), ?_, ?_, ?_, ?_⟩⟩
    · rw [hself₁]
    · rw [hself₁]
    · rw [hself₁]
    · rw [hops₁, List.append_nil]

/-- **The two apps agree**: started on two guests that hold still and read the same, they both
    return or both raise, and the dicts of the batches report, in order, the entries that the
    single calls have stored. -/
theorem single_batch_agree {t : Tenant G PsList} {u : Tenant G BatchPsList}
    (hheld : rd.HeldBy env held) (pause : Bool)
    (ht : held (t.afterIf env pause .pause).vmi.guest)
    (hu : held (u.afterIf env pause .pause).vmi.guest) (lk : TaskLookups) :
    ∃ r t' u' es dss, Runs (doPslist env lk pause) t r t' ∧
      Runs (doBatchPslist env lk pause) u r u' ∧
      t'.self.pslist = lk.stored rd es t.self.pslist ∧ u'.self.seen = u.self.seen ++ dss ∧
      List.Forall₂ (ReportsEntry lk rd) dss es ∧ es.length ≤ 101 ∧
      match r with
      | .ok _ => t'.self.calls = t.self.calls ++ [1 + 3 * es.length] ∧
          u'.self.calls = u.self.calls ++ [3 * es.length] ∧
          u'.self.msgs = u.self.msgs ++ [es.length] ∧
          t'.self.procs = t.self.procs ++ [es.length - 1] ∧
          u'.self.procs = u.self.procs ++ [es.length]
      | .error e => e = .valueError ∧ t'.self.calls = t.self.calls ∧
          u'.self.calls = u.self.calls ∧ u'.self.msgs = u.self.msgs ∧
          t'.self.procs = t.self.procs ∧ u'.self.procs = u.self.procs := by
  obtain ⟨hlength, t', _, -, hstored, hreturns, hraises⟩ := doPslist_runs hheld pause ht lk
  obtain ⟨u', _, dss, -, hseen, hreports, hreturns', hraises'⟩ :=
    doBatchPslist_runs hheld pause hu lk
  by_cases hwalk : lk.Walkable rd
  · obtain ⟨hrun, hcalls, hprocs, -⟩ := hreturns hwalk
    obtain ⟨hrun', hcalls', hprocs', hmsgs', -⟩ := hreturns' hwalk
    rw [← hwalk.listed] at hcalls hprocs hcalls' hprocs' hmsgs'
    exact ⟨_, t', u', _, dss, hrun, hrun', hstored, hseen, hreports, hlength, hcalls, hcalls',
      hmsgs', hprocs, hprocs'⟩
  · obtain ⟨hrun, hcalls, hprocs, -⟩ := hraises hwalk
    obtain ⟨hrun', hcalls', hprocs', hmsgs', -⟩ := hraises' hwalk
    exact ⟨_, t', u', _, dss, hrun, hrun', hstored, hseen, hreports, hlength, rfl, hcalls, hcalls',
      hmsgs', hprocs, hprocs'⟩

end Round

/-- Both list the two processes of a guest. -/
theorem single_batch_agree_twoTasks : ∃ t' u' es,
    Runs (doPslist twoTasksEnv twoTasksLookups true) (echoTenant PsList {}) (.ok .unit) t' ∧
    Runs (doBatchPslist twoTasksEnv twoTasksLookups true) (echoTenant BatchPsList {})
      (.ok .unit) u' ∧
    t'.self.pslist = [(0, 0, .field (.str [])), (8, 8, .field (.str []))] ∧
    u'.self.seen.length = 2 ∧
    List.Forall₂ (ReportsEntry twoTasksLookups twoTasksReadings) u'.self.seen es := by
  obtain ⟨r, t', u', es, dss, hrun, hrun', hstored, hseen, hreports, -, hcounts⟩ :=
    single_batch_agree (t := echoTenant PsList {}) (u := echoTenant BatchPsList {})
      twoTasksReadings_heldBy true trivial trivial twoTasksLookups
  -- the walk by single calls gives the number and the items
  obtain ⟨-, t'', _, -, hitems, hreturns, -⟩ := doPslist_runs (t := echoTenant PsList {})
    twoTasksReadings_heldBy true trivial twoTasksLookups
  obtain ⟨hwalk, hcalls, -⟩ := hreturns twoTasks_walkable
  obtain ⟨rfl, rfl⟩ := hrun.unique hwalk
  have hlength : 1 + 3 * es.length = 7 := by
    have hboth := hcounts.1.symm.trans hcalls
    exact List.singleton_inj.mp hboth
  refine ⟨t', u', es, hrun, hrun', hitems, ?_, ?_⟩
  · rw [hseen]
    exact hreports.length_eq.trans (by omega)
  · rw [hseen]
    exact hreports

end Furnace.App
