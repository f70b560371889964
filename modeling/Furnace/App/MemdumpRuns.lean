import Furnace.App.Memdump

namespace Furnace.App

open Furnace.Proto Furnace.Lib Furnace.Vmi

/-!
# Sessions of the memory dump

What holds of every session with `app_memdump`, in whichever order the messages of the backend and
the calls of the timers come.

* `TimersInv` — the timers that the frontend calls.
* `dump_sent` — **what has been sent is the beginning of the memory**, compressed as one stream.
* `dump_done` — when a dump is said to be done, and when the app crashes instead.
* `dump_memory` — what the backend can make of it.
-/

variable {Z : Type}

/-! ### What has been sent -/

section Invariants

variable {compress : Z → Bytes → Z × Bytes} {memsize : ℕ} {zco : Z} {s s' : DumpRun Z}

/-- The chunks and the `ix` of a batch. -/
def Note.batch : Note → Option (List Bytes × ℕ)
  | .memdump data ix => some (data, ix)
  | _ => none

/-- The batches that have been sent. -/
def batches (sent : List Note) : List (List Bytes × ℕ) := sent.filterMap Note.batch

theorem batches_append (sent : List Note) (n : Note) :
    batches (sent ++ [n]) = batches sent ++ n.batch.toList := by
  unfold batches
  rw [List.filterMap_append]
  cases n <;> rfl

/-- The frontend calls the app's own timer, and the one that the app knows as `did`. -/
structure TimersInv (fe : FE) (own : ℕ) (did : Option ℕ) : Prop where
  events : fe.eventlist = ∅
  fresh : ∀ tid ∈ fe.timerlist, tid < fe.nextTid
  ownActive : fe.timerlist.lookup own = some ⟨.timer, .active⟩
  only : ∀ tid, fe.timerlist.lookup tid = some ⟨.timer, .active⟩ → tid = own ∨ did = some tid
  didActive : ∀ tid, did = some tid → tid ≠ own ∧ fe.timerlist.lookup tid = some ⟨.timer, .active⟩

/-- What has been read and sent. -/
structure SentInv (compress : Z → Bytes → Z × Bytes) (memsize : ℕ) (zco : Z) (s : DumpRun Z) :
    Prop where
  memsize : s.app.memsize = memsize
  bound : s.app.bound = 2 ^ 22
  tiles : Tiles 0 (s.reads.map Reading.piece) s.app.offset
  stream : feed compress zco (s.reads.map Reading.data) =
    (s.app.zco, (batches s.sent).flatMap Prod.fst ++ s.lost)
  lost : s.ended = none → s.lost = []
  count : (batches s.sent).length + s.app.ttl ≤ 100
  order : ((batches s.sent).map Prod.snd).Pairwise (· < ·)
  ticks : ∀ b ∈ batches s.sent, b.2 < s.app.ticks

namespace TimersInv

variable {fe : FE} {own : ℕ} {did : Option ℕ}

theorem register (h : TimersInv fe own none) :
    TimersInv fe.registerTimer own (some fe.nextTid) where
  events := h.events
  fresh := by
    intro tid htid
    rcases (AList.mem_insert _).mp htid with rfl | htid
    · exact Nat.lt_succ_self _
    · exact Nat.lt_succ_of_lt (h.fresh tid htid)
  ownActive := by
    have hmem : own ∈ fe.timerlist := AList.lookup_isSome.mp (by rw [h.ownActive]; rfl)
    exact (AList.lookup_insert_ne (h.fresh own hmem).ne).trans h.ownActive
  only := by
    intro tid htid
    by_cases heq : tid = fe.nextTid
    · exact .inr (congrArg some heq.symm)
    · rcases h.only tid ((AList.lookup_insert_ne heq).symm.trans htid) with hown | hnone
      · exact .inl hown
      · cases hnone
  didActive := by
    intro tid htid
    cases htid
    have hmem : own ∈ fe.timerlist := AList.lookup_isSome.mp (by rw [h.ownActive]; rfl)
    exact ⟨(h.fresh own hmem).ne', AList.lookup_insert _⟩

/-- The timer of `did` can be cleared. -/
theorem clear {tid : ℕ} (h : TimersInv fe own (some tid)) :
    ∃ fe', fe.clearTimer tid = .ok fe' ∧ TimersInv fe' own none := by
  obtain ⟨hne, hlook⟩ := h.didActive tid rfl
  refine ⟨{ fe with timerlist := fe.timerlist.insert tid ⟨.timer, .inactive⟩ }, ?_, h.events, ?_,
    ?_, ?_, nofun⟩
  · unfold FE.clearTimer
    rw [hlook]
  · intro t ht
    rcases (AList.mem_insert _).mp ht with rfl | ht
    · exact h.fresh t (AList.lookup_isSome.mp (by rw [hlook]; rfl))
    · exact h.fresh t ht
  · exact (AList.lookup_insert_ne hne.symm).trans h.ownActive
  · intro t ht
    by_cases heq : t = tid
    · subst heq
      rw [show _ = some _ from AList.lookup_insert _] at ht
      cases ht
    · rcases h.only t ((AList.lookup_insert_ne heq).symm.trans ht) with hown | hdid
      · exact .inl hown
      · exact absurd (Option.some.inj hdid).symm heq

/-- A timer that is not active is deleted. -/
theorem cleanup {tid : ℕ} (h : TimersInv fe own did)
    (htid : fe.timerlist.lookup tid = some ⟨.timer, .inactive⟩) :
    TimersInv { fe with timerlist := fe.timerlist.erase tid } own did := by
  have hkeep : ∀ t, fe.timerlist.lookup t = some ⟨.timer, .active⟩ →
      (fe.timerlist.erase tid).lookup t = some ⟨.timer, .active⟩ := by
    intro t ht
    refine (AList.lookup_erase_ne ?_).trans ht
    rintro rfl
    rw [htid] at ht
    cases ht
  refine ⟨h.events, ?_, hkeep _ h.ownActive, ?_, fun t ht => ?_⟩
  · intro t ht
    exact h.fresh t ((AList.mem_erase.mp ht).2)
  · intro t ht
    by_cases heq : t = tid
    · subst heq
      rw [show _ = none from AList.lookup_erase _ _] at ht
      cases ht
    · exact h.only t ((AList.lookup_erase_ne heq).symm.trans ht)
  · obtain ⟨hne, hlook⟩ := h.didActive t ht
    exact ⟨hne, hkeep t hlook⟩

end TimersInv

/-- A step that reads nothing, and sends nothing but a word. -/
theorem SentInv.of_word (h : SentInv compress memsize zco s) (words : List Note)
    (hwords : batches words = []) (hsent : s'.sent = s.sent ++ words)
    (hreads : s'.reads = s.reads) (hlost : s'.lost = s.lost)
    (hended : s'.ended = none → s.ended = none)
    (happ : s'.app.memsize = s.app.memsize ∧ s'.app.bound = s.app.bound ∧
      s'.app.offset = s.app.offset ∧ s'.app.zco = s.app.zco ∧ s'.app.ttl = s.app.ttl ∧
      s.app.ticks ≤ s'.app.ticks) : SentInv compress memsize zco s' := by
  obtain ⟨hmemsize, hbound, hoffset, hzco, httl, hticks⟩ := happ
  have hbatches : batches s'.sent = batches s.sent := by
    rw [hsent, batches, List.filterMap_append]
    exact (congrArg _ hwords).trans (List.append_nil _)
  constructor
  · exact hmemsize.trans h.memsize
  · exact hbound.trans h.bound
  · rw [hreads, hoffset]
    exact h.tiles
  · rw [hreads, hbatches, hlost, hzco]
    exact h.stream
  · intro hnone
    rw [hlost]
    exact h.lost (hended hnone)
  · rw [hbatches, httl]
    exact h.count
  · rw [hbatches]
    exact h.order
  · rw [hbatches]
    exact fun b hb => lt_of_lt_of_le (h.ticks b hb) hticks

/-- What the loop has read and compressed is added to the stream. -/
theorem SentInv.stream_batched (h : SentInv compress memsize zco s) (hlost : s.lost = [])
    {read : ℕ → ℕ → Except PyError Bytes} {zs : List Bytes}
    (hb : Batched compress read s.countDown s' zs) :
    Tiles 0 (s'.reads.map Reading.piece) s'.app.offset ∧
      feed compress zco (s'.reads.map Reading.data) =
        (s'.app.zco, (batches s.sent).flatMap Prod.fst ++ zs) := by
  obtain ⟨rs, hreads, htiles, hfeed, -⟩ := hb.goesOn
  have hstream := h.stream
  rw [hlost, List.append_nil] at hstream
  rw [hreads]
  show Tiles 0 ((s.reads ++ rs).map _) _ ∧ feed compress zco ((s.reads ++ rs).map _) = _
  rw [List.map_append, List.map_append, feed_append, hstream]
  refine ⟨tiles_append h.tiles htiles, ?_⟩
  show ((feed compress s.app.zco _).1, _ ++ (feed compress s.app.zco _).2) = _
  rw [show feed compress s.app.zco (rs.map Reading.data) = _ from hfeed]

/-- A call of the timer keeps what is known of the messages. -/
theorem SentInv.calledBack (h : SentInv compress memsize zco s) (halive : s.ended = none)
    {read : ℕ → ℕ → Except PyError Bytes} {p : DumpRun Z × Option PyError}
    (hp : CalledBack compress read s p) :
    SentInv compress memsize zco (DumpRun.finish (p.1, p.2.map .raised)) := by
  have hlost := h.lost halive
  have hcount := h.count
  cases hp with
  | @batch s' zs httl hb hfull =>
    obtain ⟨htiles, hstream⟩ := h.stream_batched hlost hb
    have hsent : s'.sent = s.sent := hb.sent
    have hlost' : s'.lost = s.lost := hb.lost
    have hticks : s'.app.ticks = s.app.ticks := hb.ticks
    have httl' : s'.app.ttl ≤ s.app.ttl - 1 := hb.ttl
    have hbatches : batches (s'.sent ++ [.memdump zs s'.app.ticks]) =
        batches s.sent ++ [(zs, s.app.ticks)] := by
      rw [batches_append, hsent, hticks]
      rfl
    constructor
    · exact hb.memsize.trans h.memsize
    · exact hb.bound.trans h.bound
    · exact htiles
    · show feed compress zco (s'.reads.map _) =
        (s'.app.zco, (batches (s'.sent ++ [.memdump zs s'.app.ticks])).flatMap _ ++ s'.lost)
      rw [hbatches, hlost', hlost, List.append_nil, List.flatMap_append, hstream]
      simp
    · exact fun _ => hlost'.trans hlost
    · show (batches (s'.sent ++ [.memdump zs s'.app.ticks])).length + s'.app.ttl ≤ 100
      rw [hbatches, List.length_append, List.length_singleton]
      omega
    · show ((batches (s'.sent ++ [.memdump zs s'.app.ticks])).map _).Pairwise _
      rw [hbatches, List.map_append]
      refine List.pairwise_append.mpr ⟨h.order, List.pairwise_singleton _ _, ?_⟩
      intro a ha b hb'
      obtain ⟨x, hx, rfl⟩ := List.mem_map.mp ha
      rw [List.mem_singleton.mp hb']
      exact h.ticks x hx
    · show ∀ b ∈ batches (s'.sent ++ [.memdump zs s'.app.ticks]), b.2 < s'.app.ticks + 1
      rw [hbatches, hticks]
      intro b hmem
      rcases List.mem_append.mp hmem with hold | hnew
      · exact Nat.lt_succ_of_lt (h.ticks b hold)
      · rw [List.mem_singleton.mp hnew]
        exact Nat.lt_succ_self _
  | @lost s' zs e httl hb hend =>
    obtain ⟨htiles, hstream⟩ := h.stream_batched hlost hb
    have hsent : s'.sent = s.sent := hb.sent
    have hticks : s'.app.ticks = s.app.ticks := hb.ticks
    have httl' : s'.app.ttl ≤ s.app.ttl - 1 := hb.ttl
    constructor
    · exact hb.memsize.trans h.memsize
    · exact hb.bound.trans h.bound
    · exact htiles
    · show feed compress zco (s'.reads.map _) = (s'.app.zco, (batches s'.sent).flatMap _ ++ zs)
      rw [hsent]
      exact hstream
    · nofun
    · show (batches s'.sent).length + s'.app.ttl ≤ 100
      rw [hsent]
      omega
    · show ((batches s'.sent).map _).Pairwise _
      rw [hsent]
      exact h.order
    · show ∀ b ∈ batches s'.sent, b.2 < s'.app.ticks
      rw [hsent, hticks]
      exact h.ticks
  | done httl hdid hclear =>
    exact h.of_word [.memdumpDone] rfl rfl rfl rfl (fun _ => halive)
      ⟨rfl, rfl, rfl, rfl, rfl, Nat.le_succ _⟩
  | stuck =>
    exact h.of_word [] rfl (List.append_nil _).symm rfl rfl nofun ⟨rfl, rfl, rfl, rfl, rfl, le_rfl⟩

/-- So does a message of the backend. -/
theorem SentInv.beCalledBack (h : SentInv compress memsize zco s) (halive : s.ended = none)
    {m : BeMessage} {p : DumpRun Z × Option Ended} (hp : BeCalledBack m s p) :
    SentInv compress memsize zco (DumpRun.finish p) := by
  cases hp with
  | malformed | kept | stuck =>
    exact h.of_word [] rfl (List.append_nil _).symm rfl rfl (fun _ => halive)
      ⟨rfl, rfl, rfl, rfl, rfl, le_rfl⟩
  | cleared =>
    exact h.of_word [] rfl (List.append_nil _).symm rfl rfl (fun _ => halive)
      ⟨rfl, rfl, rfl, rfl, rfl, le_rfl⟩
  | running =>
    exact h.of_word [.error] rfl rfl rfl rfl (fun _ => halive) ⟨rfl, rfl, rfl, rfl, rfl, le_rfl⟩
  | started =>
    exact h.of_word [.memdumpRunning] rfl rfl rfl rfl (fun _ => halive)
      ⟨rfl, rfl, rfl, rfl, rfl, le_rfl⟩

/-- The app's own timer sends a word at most. -/
theorem timerCallback_word (s : DumpRun Z) : ∃ words one, batches words = [] ∧
    .memdumpDone ∉ words ∧ s.timerCallback =
      DumpRun.tick { s with sent := s.sent ++ words, app := { s.app with oneWay := one } } := by
  unfold DumpRun.timerCallback
  split
  · exact ⟨[.hi], true, rfl, by simp, rfl⟩
  · split
    · exact ⟨[.waiting], s.app.oneWay, rfl, by simp, rfl⟩
    · refine ⟨[], s.app.oneWay, rfl, by simp, ?_⟩
      rw [List.append_nil]

/-! ### Steps -/

/-- A step is a message, a call of one of the timers, or the end of a timer. -/
theorem next_cases {i : DumpInput} (h : s.next compress i = some s') : s.ended = none ∧
    ((∃ m, i = .be m ∧ s' = DumpRun.finish (s.beCallback m)) ∨ s' = s.timerCallback ∨
      (∃ tid read, i = .fires tid read ∧ tid ≠ s.own ∧
        s.fe.timerlist.lookup tid = some ⟨.timer, .active⟩ ∧
        s' = DumpRun.finish ((s.memdumpCallback compress read).1,
          (s.memdumpCallback compress read).2.map .raised)) ∨
      ∃ tid, s.fe.timerlist.lookup tid = some ⟨.timer, .inactive⟩ ∧
        s' = { s with fe := { s.fe with timerlist := s.fe.timerlist.erase tid } }) := by
  unfold DumpRun.next at h
  split at h
  · cases h
  · next halive =>
    refine ⟨Option.not_isSome_iff_eq_none.mp halive, ?_⟩
    cases i with
    | be m => exact .inl ⟨m, rfl, (Option.some.inj h).symm⟩
    | fires tid read =>
      dsimp only at h
      split at h
      · cases h
      · next hactive =>
        split at h
        · exact .inr (.inl (Option.some.inj h).symm)
        · next hown =>
          exact .inr (.inr (.inl ⟨tid, read, rfl, hown, not_not.mp hactive,
            (Option.some.inj h).symm⟩))
    | cleanup tid =>
      dsimp only at h
      split at h
      · cases h
      · next hinactive =>
        exact .inr (.inr (.inr ⟨tid, not_not.mp hinactive, (Option.some.inj h).symm⟩))

/-- What is known of every state of a session. -/
structure DumpInv (compress : Z → Bytes → Z × Bytes) (memsize : ℕ) (zco : Z) (s : DumpRun Z) :
    Prop extends SentInv compress memsize zco s where
  timers : TimersInv s.fe s.own s.app.did

theorem dumpInv_start (identR : Bytes) :
    DumpInv compress memsize zco (DumpRun.start memsize zco identR) where
  memsize := rfl
  bound := rfl
  tiles := rfl
  stream := rfl
  lost := fun _ => rfl
  count := le_rfl
  order := List.Pairwise.nil
  ticks := nofun
  timers := by
    refine ⟨rfl, ?_, rfl, ?_, nofun⟩
    · intro tid htid
      have hkeys : tid ∈ [1, 0] := htid
      show tid < 2
      simp at hkeys
      omega
    · intro tid htid
      have hmem : tid ∈ (DumpRun.start memsize zco identR).fe.timerlist :=
        AList.lookup_isSome.mp (by rw [htid]; rfl)
      have hkeys : tid ∈ [1, 0] := hmem
      rcases List.mem_cons.mp hkeys with rfl | hkeys
      · exact .inl rfl
      · rw [List.mem_singleton.mp hkeys] at htid
        cases htid

/-- What one step keeps. -/
theorem dumpInv_step {i : DumpInput} (h : DumpInv compress memsize zco s)
    (hs : s.next compress i = some s') : DumpInv compress memsize zco s' := by
  obtain ⟨halive, hcases⟩ := next_cases hs
  rcases hcases with ⟨m, -, rfl⟩ | rfl | ⟨tid, read, -, -, -, rfl⟩ | ⟨tid, htid, rfl⟩
  · have hcalled := beCallback_cases m s
    refine ⟨h.toSentInv.beCalledBack halive hcalled, ?_⟩
    generalize s.beCallback m = p at hcalled
    have htimers := h.timers
    cases hcalled with
    | malformed | kept | running | stuck => exact htimers
    | started hdid =>
      rw [hdid] at htimers
      exact htimers.register
    | cleared hdid hclear =>
      rw [hdid] at htimers
      obtain ⟨fe', hfe, hinv⟩ := htimers.clear
      cases hclear.symm.trans hfe
      exact hinv
  · obtain ⟨words, one, hwords, -, heq⟩ := timerCallback_word s
    rw [heq]
    exact ⟨h.toSentInv.of_word words hwords rfl rfl rfl (fun _ => halive)
      ⟨rfl, rfl, rfl, rfl, rfl, Nat.le_succ _⟩, h.timers⟩
  · have hcalled := memdumpCallback_cases compress read s
    refine ⟨h.toSentInv.calledBack halive hcalled, ?_⟩
    generalize s.memdumpCallback compress read = p at hcalled
    have htimers := h.timers
    cases hcalled with
    | @batch s' zs httl hb hfull =>
      show TimersInv s'.fe s'.own s'.app.did
      rw [hb.fe, hb.own, hb.did]
      exact htimers
    | @lost s' zs e httl hb hend =>
      show TimersInv s'.fe s'.own s'.app.did
      rw [hb.fe, hb.own, hb.did]
      exact htimers
    | done httl hdid hclear =>
      rw [hdid] at htimers
      obtain ⟨fe', hfe, hinv⟩ := htimers.clear
      cases hclear.symm.trans hfe
      exact hinv
    | stuck => exact htimers
  · exact ⟨h.toSentInv.of_word [] rfl (List.append_nil _).symm rfl rfl (fun _ => halive)
      ⟨rfl, rfl, rfl, rfl, rfl, le_rfl⟩, h.timers.cleanup htid⟩

/-- **What has been sent is the beginning of the memory.**  In every session, whatever the backend
    says, whichever timers come, and whatever the reads do: the reads go through the memory from
    its start without a gap; the chunks that have been sent are, in order, what the compressor has
    made of them, up to those of a callback that has raised; there are at most a hundred batches,
    numbered in the order of their sending; and at most one timer of a dump is active. -/
theorem dump_sent {s : DumpRun Z}
    (h : Reach (dumpSystem compress memsize zco) (fun _ _ => True) s) :
    Tiles 0 (s.reads.map Reading.piece) s.app.offset ∧ s.app.offset ≤ memsize ∧
      feed compress zco (s.reads.map Reading.data) =
        (s.app.zco, (batches s.sent).flatMap Prod.fst ++ s.lost) ∧
      (s.ended = none → s.lost = []) ∧
      (batches s.sent).length ≤ 100 ∧ ((batches s.sent).map Prod.snd).Pairwise (· < ·) ∧
      ∀ tid, s.fe.timerlist.lookup tid = some ⟨.timer, .active⟩ →
        tid = s.own ∨ s.app.did = some tid := by
  have hinv : DumpInv compress memsize zco s := h.invariant (DumpInv compress memsize zco)
    (by rintro _ ⟨identR, rfl⟩; exact dumpInv_start identR) fun s i s' h _ hs => dumpInv_step h hs
  have hcount := hinv.count
  have hinside := s.app.inside
  rw [hinv.memsize] at hinside
  exact ⟨hinv.tiles, hinside, hinv.stream, hinv.lost, by omega, hinv.order, hinv.timers.only⟩

/-! ### The end of a dump -/

/-- The backend's messages are commands or none, and the reads return. -/
def DumpGuard : DumpInput → Prop
  | .be m => ∃ c, m.command = .ok c
  | .fires _ read => Returns read
  | .cleanup _ => True

/-- How far the dump has come. -/
structure DoneInv (s : DumpRun Z) : Prop where
  progress : (∀ e, s.ended ≠ some (.raised e)) →
    (batches s.sent).length + s.app.ttl = 100 ∧ (∀ b ∈ batches s.sent, 2 ^ 22 ≤ batchSize b.1) ∨
      s.app.ttl = 0 ∧ s.app.offset = s.app.memsize
  quiet : .memdumpDone ∈ s.sent → s.app.ttl = 0
  crash : ∀ e, s.ended = some (.raised e) →
    s.app.offset = s.app.memsize ∧ .memdumpDone ∉ s.sent

/-- A step that reads nothing, and sends nothing but a word; if that is the last one, then because
    no batch is left. -/
theorem DoneInv.of_word (h : DoneInv s) (halive : s.ended = none) (words : List Note)
    (hwords : batches words = []) (hsent : s'.sent = s.sent ++ words)
    (hended : ∀ e, s'.ended ≠ some (.raised e)) (hdone : .memdumpDone ∈ words → s.app.ttl = 0)
    (happ : s'.app.memsize = s.app.memsize ∧ s'.app.offset = s.app.offset ∧
      s'.app.ttl = s.app.ttl) : DoneInv s' := by
  obtain ⟨hmemsize, hoffset, httl⟩ := happ
  have hbatches : batches s'.sent = batches s.sent := by
    rw [hsent, batches, List.filterMap_append]
    exact (congrArg _ hwords).trans (List.append_nil _)
  constructor
  · intro _
    rw [hbatches, hmemsize, hoffset, httl]
    refine h.progress fun e he => ?_
    rw [halive] at he
    cases he
  · intro hmem
    rw [httl]
    rw [hsent] at hmem
    rcases List.mem_append.mp hmem with hold | hnew
    · exact h.quiet hold
    · exact hdone hnew
  · exact fun e he => absurd he (hended e)

/-- A call of the timer, in a session whose reads return. -/
theorem DoneInv.calledBack (h : DoneInv s) (hinv : DumpInv compress memsize zco s)
    (halive : s.ended = none) {read : ℕ → ℕ → Except PyError Bytes} (hread : Returns read)
    (hdid : s.app.did.isSome) {p : DumpRun Z × Option PyError} (hp : CalledBack compress read s p) :
    DoneInv (DumpRun.finish (p.1, p.2.map .raised)) := by
  have hnot : ∀ e, s.ended ≠ some (.raised e) := by
    intro e he
    rw [halive] at he
    cases he
  cases hp with
  | @batch s' zs httl hb hfull =>
    have hsent : s'.sent = s.sent := hb.sent
    have hbatches : batches (s'.sent ++ [.memdump zs s'.app.ticks]) =
        batches s.sent ++ [(zs, s'.app.ticks)] := by
      rw [batches_append, hsent]
      rfl
    constructor
    · intro _
      show (batches (s'.sent ++ [.memdump zs s'.app.ticks])).length + s'.app.ttl = 100 ∧
        (∀ b ∈ batches (s'.sent ++ [.memdump zs s'.app.ticks]), _) ∨ s'.app.ttl = 0 ∧ _
      rw [hbatches]
      rcases hfull hread with ⟨httl', hsize⟩ | hend
      · rcases h.progress hnot with ⟨hcount, hall⟩ | ⟨hzero, -⟩
        · refine .inl ⟨?_, fun b hmem => ?_⟩
          · rw [List.length_append, List.length_singleton]
            omega
          · rcases List.mem_append.mp hmem with hold | hnew
            · exact hall b hold
            · rw [List.mem_singleton.mp hnew]
              rw [hinv.bound] at hsize
              exact hsize
        · omega
      · exact .inr hend
    · show .memdumpDone ∈ s'.sent ++ [.memdump zs s'.app.ticks] → _
      intro hmem
      rw [hsent] at hmem
      rcases List.mem_append.mp hmem with hold | hnew
      · have hzero := h.quiet hold
        omega
      · cases List.mem_singleton.mp hnew
    · intro e he
      cases he
  | @lost s' zs e httl hb hend =>
    have hsent : s'.sent = s.sent := hb.sent
    have hquiet : .memdumpDone ∉ s'.sent := by
      intro hmem
      rw [hsent] at hmem
      have hzero := h.quiet hmem
      omega
    constructor
    · intro hne
      exact absurd rfl (hne e)
    · exact fun hmem => absurd hmem hquiet
    · exact fun _ _ => ⟨hend hread, hquiet⟩
  | done httl hdid hclear =>
    exact h.of_word halive [.memdumpDone] rfl rfl nofun (fun _ => httl) ⟨rfl, rfl, rfl⟩
  | stuck hstuck =>
    obtain ⟨did, hsome⟩ := Option.isSome_iff_exists.mp hdid
    have htimers := hinv.timers
    rw [hsome] at htimers
    obtain ⟨fe, hfe, -⟩ := htimers.clear
    exact absurd hfe (hstuck did fe hsome)

/-- What one step keeps, if the messages are commands and the reads return. -/
theorem doneInv_step {i : DumpInput} (h : DoneInv s) (hinv : DumpInv compress memsize zco s)
    (hg : DumpGuard i) (hs : s.next compress i = some s') : DoneInv s' := by
  obtain ⟨halive, hcases⟩ := next_cases hs
  rcases hcases with ⟨m, rfl, rfl⟩ | rfl | ⟨tid, read, rfl, hown, hactive, rfl⟩ | ⟨tid, -, rfl⟩
  · have hcalled := beCallback_cases m s
    generalize s.beCallback m = p at hcalled
    cases hcalled with
    | malformed hm =>
      obtain ⟨c, hc⟩ := hg
      rw [hm] at hc
      cases hc
    | kept hr =>
      exact h.of_word halive [] rfl (List.append_nil _).symm hr nofun ⟨rfl, rfl, rfl⟩
    | running => exact h.of_word halive [.error] rfl rfl nofun (by simp) ⟨rfl, rfl, rfl⟩
    | started =>
      exact h.of_word halive [.memdumpRunning] rfl rfl nofun (by simp) ⟨rfl, rfl, rfl⟩
    | cleared =>
      exact h.of_word halive [] rfl (List.append_nil _).symm nofun nofun ⟨rfl, rfl, rfl⟩
    | stuck hdid hclear =>
      have htimers := hinv.timers
      rw [hdid] at htimers
      obtain ⟨fe, hfe, -⟩ := htimers.clear
      rw [hclear] at hfe
      cases hfe
  · obtain ⟨words, one, hwords, hdone, heq⟩ := timerCallback_word s
    rw [heq]
    refine h.of_word halive words hwords rfl (fun e he => ?_) (absurd · hdone) ⟨rfl, rfl, rfl⟩
    rw [show _ = none from halive] at he
    cases he
  · refine h.calledBack hinv halive hg ?_ (memdumpCallback_cases compress read s)
    rcases hinv.timers.only tid hactive with heq | hdid
    · exact absurd heq hown
    · rw [hdid]
      rfl
  · refine h.of_word halive [] rfl (List.append_nil _).symm (fun e he => ?_) nofun ⟨rfl, rfl, rfl⟩
    rw [show _ = none from halive] at he
    cases he

theorem doneInv_start (identR : Bytes) : DoneInv (DumpRun.start memsize zco identR) where
  progress := fun _ => .inl ⟨rfl, nofun⟩
  quiet := nofun
  crash := nofun

/-- Where the dump is said to be done. -/
theorem DoneInv.done (h : DoneInv s) (hinv : DumpInv compress memsize zco s)
    (hmem : .memdumpDone ∈ s.sent) : s.app.offset = memsize ∨ (batches s.sent).length = 100 ∧
      ∀ b ∈ batches s.sent, 2 ^ 22 ≤ batchSize b.1 := by
  have hzero := h.quiet hmem
  rcases h.progress fun e he => (h.crash e he).2 hmem with ⟨hcount, hall⟩ | ⟨-, hend⟩
  · rw [hzero, Nat.add_zero] at hcount
    exact .inr ⟨hcount, hall⟩
  · rw [hinv.memsize] at hend
    exact .inl hend

/-- **When a dump is said to be done.**  In a session in which the reads return and the backend's
    messages can be understood, the backend is told that the dump is done only when the whole
    memory has been read, or when a hundred batches of at least `2 ^ 22` bytes each have been sent;
    and the app crashes only where the memory ends, and then the backend is never told. -/
theorem dump_done {s : DumpRun Z}
    (h : Reach (dumpSystem compress memsize zco) (fun _ i => DumpGuard i) s) :
    (.memdumpDone ∈ s.sent → s.app.offset = memsize ∨ (batches s.sent).length = 100 ∧
      ∀ b ∈ batches s.sent, 2 ^ 22 ≤ batchSize b.1) ∧
      ∀ e, s.ended = some (.raised e) → s.app.offset = memsize ∧ .memdumpDone ∉ s.sent := by
  have hinv : DumpInv compress memsize zco s ∧ DoneInv s := by
    refine h.invariant (fun s => DumpInv compress memsize zco s ∧ DoneInv s) ?_
      fun s i s' h hg hs => ⟨dumpInv_step h.1 hs, doneInv_step h.2 h.1 hg hs⟩
    rintro _ ⟨identR, rfl⟩
    exact ⟨dumpInv_start identR, doneInv_start identR⟩
  obtain ⟨hdump, hdone⟩ := hinv
  have hcrash := hdone.crash
  rw [hdump.memsize] at hcrash
  exact ⟨hdone.done hdump, hcrash⟩

end Invariants

/-! ### The memory of the guest -/

/-- The messages are commands or none, and the reads give what is in the memory. -/
def MemoryGuard (mem : Bytes) : DumpInput → Prop
  | .be m => ∃ c, m.command = .ok c
  | .fires _ read => ∀ a n, read a n = .ok ((mem.drop a).take n)
  | .cleanup _ => True

theorem MemoryGuard.dumpGuard {mem : Bytes} {i : DumpInput} (h : MemoryGuard mem i) :
    DumpGuard i := by
  cases i with
  | be m => exact h
  | fires tid read => exact fun a n => ⟨_, h a n⟩
  | cleanup tid => trivial

/-- What has been read is what is in the memory. -/
def ReadsMemory (mem : Bytes) (s : DumpRun Z) : Prop :=
  ∀ r ∈ s.reads, r.data = (mem.drop r.offset).take r.count

theorem readsMemory_batched {mem : Bytes} {read : ℕ → ℕ → Except PyError Bytes} {zs : List Bytes}
    (h : ReadsMemory mem s) (hread : ∀ a n, read a n = .ok ((mem.drop a).take n))
    (hb : Batched compress read s.countDown s' zs) : ReadsMemory mem s' := by
  obtain ⟨rs, hreads, -, -, hrs⟩ := hb.goesOn
  intro r hr
  rw [hreads] at hr
  rcases List.mem_append.mp hr with hr | hr
  · exact h r hr
  · have hdata := hrs r hr
    rw [hread] at hdata
    exact (Except.ok.inj hdata).symm

theorem readsMemory_step {mem : Bytes} {i : DumpInput} (h : ReadsMemory mem s)
    (hg : MemoryGuard mem i) (hs : s.next compress i = some s') : ReadsMemory mem s' := by
  obtain ⟨-, hcases⟩ := next_cases hs
  rcases hcases with ⟨m, rfl, rfl⟩ | rfl | ⟨tid, read, rfl, -, -, rfl⟩ | ⟨tid, -, rfl⟩
  · have hcalled := beCallback_cases m s
    generalize s.beCallback m = p at hcalled
    cases hcalled <;> exact h
  · obtain ⟨words, one, -, -, heq⟩ := timerCallback_word s
    rw [heq]
    exact h
  · have hcalled := memdumpCallback_cases compress read s
    generalize s.memdumpCallback compress read = p at hcalled
    cases hcalled with
    | @batch s' zs httl hb hfull =>
      have hs' : ReadsMemory mem s' := readsMemory_batched h hg hb
      exact hs'
    | @lost s' zs e httl hb hend =>
      have hs' : ReadsMemory mem s' := readsMemory_batched h hg hb
      exact hs'
    | done => exact h
    | stuck => exact h
  · exact h

/-- **What the backend can make of a dump.**  Let `decompress` undo a compressor that is flushed.
    What has been sent, and lost with a crash, gives the memory up to `offset` together with the
    output of a flush, which the app never makes.  When the dump is said to be done, the memory has
    been read to its end, unless a hundred batches were sent. -/
theorem dump_memory (flush : Z → Bytes) (decompress : Bytes → Bytes) {mem : Bytes}
    (hflush : ∀ mems, decompress ((feed compress zco mems).2.flatten ++
      flush (feed compress zco mems).1) = mems.flatten)
    (h : Reach (dumpSystem compress mem.length zco) (fun _ i => MemoryGuard mem i) s) :
    decompress (((batches s.sent).flatMap Prod.fst ++ s.lost).flatten ++ flush s.app.zco) =
      mem.take s.app.offset ∧
    (.memdumpDone ∈ s.sent → (batches s.sent).length < 100 → s.app.offset = mem.length) := by
  have hinv : DumpInv compress mem.length zco s ∧ DoneInv s ∧ ReadsMemory mem s := by
    refine h.invariant
      (fun s => DumpInv compress mem.length zco s ∧ DoneInv s ∧ ReadsMemory mem s) ?_
      fun s i s' h hg hs => ⟨dumpInv_step h.1 hs, doneInv_step h.2.1 h.1 hg.dumpGuard hs,
        readsMemory_step h.2.2 hg hs⟩
    rintro _ ⟨identR, rfl⟩
    exact ⟨dumpInv_start identR, doneInv_start identR, nofun⟩
  obtain ⟨hdump, hdone, hreads⟩ := hinv
  have hmemory : (s.reads.map Reading.data).flatten = mem.take s.app.offset := by
    have hdata : s.reads.map Reading.data =
        (s.reads.map Reading.piece).map fun p => (mem.drop p.1).take p.2 := by
      rw [List.map_map]
      exact List.map_congr_left hreads
    rw [hdata, tiles_flatten mem hdump.tiles, List.drop_zero, Nat.sub_zero]
  refine ⟨?_, fun hmem hcount => ?_⟩
  · have hrest := hflush (s.reads.map Reading.data)
    rw [hdump.stream, hmemory] at hrest
    exact hrest
  · rcases hdone.done hdump hmem with hend | ⟨hfull, -⟩
    · exact hend
    · omega

/-! ### A guest of three bytes -/

/-- The reads of a guest. -/
def readsFrom (mem : Bytes) (a n : ℕ) : Except PyError Bytes := .ok ((mem.drop a).take n)

/-- Its memory. -/
def shortMemory : Bytes := [7, 7, 7]

/-- The backend has said go. -/
def shortStarted (zco : Z) : DumpRun Z :=
  ((DumpRun.start 3 zco []).listening.notify .memdumpRunning).started

/-- The one batch has been sent. -/
def shortBatch (compress : Z → Bytes → Z × Bytes) (zco : Z) : DumpRun Z :=
  { shortStarted zco with
    app := { (shortStarted zco).app with
      offset := 3, inside := Nat.le_refl 3, ttl := 0, ticks := 1,
      zco := (compress zco shortMemory).1 }
    sent := [.memdumpRunning, .memdump [(compress zco shortMemory).2] 0]
    reads := [⟨0, 3, shortMemory⟩] }

/-- The dump is done. -/
def shortDone (compress : Z → Bytes → Z × Bytes) (zco : Z) : DumpRun Z :=
  (((shortBatch compress zco).stopped { (shortBatch compress zco).fe with
    timerlist := (shortBatch compress zco).fe.timerlist.insert 2 ⟨.timer, .inactive⟩ }).notify
    .memdumpDone).tick

section Short

variable {compress : Z → Bytes → Z × Bytes} {zco : Z}

theorem shortBatch_eq (hsmall : (compress zco shortMemory).2.length < 2 ^ 22) :
    (shortStarted zco).memdumpCallback compress (readsFrom shortMemory) =
      (shortBatch compress zco, none) := by
  have hbatch : ∃ s,
      (shortStarted zco).countDown.batch compress (readsFrom shortMemory) 0 [] =
        (s, [(compress zco shortMemory).2], none) ∧
      (s.notify (.memdump [(compress zco shortMemory).2] s.app.ticks)).tick =
        shortBatch compress zco := by
    rw [DumpRun.batch, if_pos (shortStarted zco).countDown.app.bound_pos]
    split
    · next h => cases h
    · next h => cases h
    · next mem s' h =>
      cases h
      -- the second round finds the end of the memory
      rw [DumpRun.batch, if_pos (by rw [Nat.zero_add]; exact hsmall)]
      split
      · exact ⟨_, rfl, rfl⟩
      · next hne h =>
        cases h
        exact absurd rfl hne
      · next h => cases h
  obtain ⟨s, hs, heq⟩ := hbatch
  rw [DumpRun.memdumpCallback, if_pos (by exact Nat.succ_pos 99), hs]
  exact congrArg (·, none) heq

theorem shortDone_reach (compress : Z → Bytes → Z × Bytes) (zco : Z)
    {guard : DumpRun Z → DumpInput → Prop}
    (hsmall : (compress zco shortMemory).2.length < 2 ^ 22)
    (hguard : ∀ s i, MemoryGuard shortMemory i → guard s i) :
    Reach (dumpSystem compress 3 zco) guard (shortDone compress zco) := by
  have hgo : MemoryGuard shortMemory (.be ⟨.ok (some "memdump_cmd"), .ok (some "go")⟩) := ⟨_, rfl⟩
  have hfires : MemoryGuard shortMemory (.fires 2 (readsFrom shortMemory)) := fun _ _ => rfl
  have hbatch : (shortStarted zco).next compress (.fires 2 (readsFrom shortMemory)) =
      some (shortBatch compress zco) := by
    show some (DumpRun.finish
      (((shortStarted zco).memdumpCallback compress (readsFrom shortMemory)).1,
        ((shortStarted zco).memdumpCallback compress (readsFrom shortMemory)).2.map .raised)) = _
    rw [shortBatch_eq hsmall]
    rfl
  have hstart : Reach (dumpSystem compress 3 zco) guard (DumpRun.start 3 zco []) :=
    .init ⟨[], rfl⟩
  have hstarted : Reach (dumpSystem compress 3 zco) guard (shortStarted zco) :=
    .step hstart (hguard _ _ hgo) rfl
  have hsent : Reach (dumpSystem compress 3 zco) guard (shortBatch compress zco) :=
    .step hstarted (hguard _ _ hfires) hbatch
  exact .step hsent (hguard _ _ hfires) rfl

end Short

/-- A compressor that keeps what it is given, and gives out what it has kept. -/
def holding (kept mem : Bytes) : Bytes × Bytes := (mem, kept)

/-- The header of a `zlib` stream, the first that the compressor gives out. -/
def zlibHeader : Bytes := [0x78, 0x9c]

/-- Of three bytes the header is sent. -/
theorem dump_sent_short :
    ((batches (shortDone holding zlibHeader).sent).flatMap Prod.fst = [zlibHeader]) ∧
      Tiles 0 [(0, 3)] 3 := by
  obtain ⟨htiles, -⟩ := dump_sent (shortDone_reach holding zlibHeader (by decide)
    fun _ _ _ => trivial)
  exact ⟨rfl, htiles⟩

/-- And then the dump is said to be done. -/
theorem dump_done_short : .memdumpDone ∈ (shortDone holding zlibHeader).sent ∧
    ((shortDone holding zlibHeader).app.offset = 3 ∨
      (batches (shortDone holding zlibHeader).sent).length = 100 ∧
        ∀ b ∈ batches (shortDone holding zlibHeader).sent, 2 ^ 22 ≤ batchSize b.1) := by
  have hdone : .memdumpDone ∈ (shortDone holding zlibHeader).sent := by decide
  exact ⟨hdone, (dump_done (shortDone_reach _ _ (by decide) fun _ _ h => h.dumpGuard)).1 hdone⟩

/-- What is kept is the end of what has been given in. -/
theorem feed_holding (kept : Bytes) (mems : List Bytes) :
    (feed holding kept mems).2.flatten ++ (feed holding kept mems).1 = kept ++ mems.flatten := by
  induction mems generalizing kept with
  | nil => simp [feed]
  | cons mem mems ih =>
    show (kept ++ (feed holding mem mems).2.flatten) ++ (feed holding mem mems).1 = _
    rw [List.append_assoc, ih]
    rfl

/-- All that the backend has of the three bytes is the header of the stream; the bytes come out
    with a flush. -/
theorem dump_memory_short :
    ((batches (shortDone holding zlibHeader).sent).flatMap Prod.fst).flatten = zlibHeader ∧
      (zlibHeader ++ (shortDone holding zlibHeader).app.zco).drop 2 = shortMemory ∧
      (shortDone holding zlibHeader).app.offset = 3 := by
  have hflush : ∀ mems, ((feed holding zlibHeader mems).2.flatten ++
      id (feed holding zlibHeader mems).1).drop 2 = mems.flatten := by
    intro mems
    show ((feed holding zlibHeader mems).2.flatten ++ (feed holding zlibHeader mems).1).drop 2 = _
    rw [feed_holding]
    rfl
  have hreach : Reach (dumpSystem holding shortMemory.length zlibHeader)
      (fun _ i => MemoryGuard shortMemory i) (shortDone holding zlibHeader) :=
    shortDone_reach holding zlibHeader (by decide) fun _ _ h => h
  obtain ⟨hsent, hdone⟩ := dump_memory id (List.drop 2) hflush hreach
  exact ⟨rfl, hsent.trans rfl, hdone (by decide) (by decide)⟩

end Furnace.App
