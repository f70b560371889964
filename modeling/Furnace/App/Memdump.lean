import Furnace.App.Frontend
import Furnace.Lib.Tiles
import Furnace.Lib.Transition

namespace Furnace.App

open Furnace.Proto Furnace.Lib Furnace.Vmi

/-!
# Dumping the memory of the guest

The app `app_memdump` reads the guest's memory window by window, compresses it, and sends it to the
backend in batches, one for each call of a timer that the backend starts and stops.  It counts the
batches down from 100.

* `DumpRun` — the members of the app, the frontend's registrations, and what has been sent.
* `memdump`, `batch`, `memdumpCallback`, `beCallback`, `timerCallback` — the methods of the app.
* `batch_spec` / `batch_full` — what the loop over the windows does, and when it ends.
* `memdumpCallback_cases` / `beCallback_cases` — the ways in which the callbacks end.
-/

variable {G Z : Type}

/-! ### Timers of the frontend -/

namespace FE

/-- `event_register` of the backend callback. -/
def registerBe (fe : FE) : FE :=
  { fe with nextTid := fe.nextTid + 1
            timerlist := fe.timerlist.insert fe.nextTid ⟨.be, .active⟩
            beInfo := true }

/-- `event_register` of a timer. -/
def registerTimer (fe : FE) : FE :=
  { fe with nextTid := fe.nextTid + 1
            timerlist := fe.timerlist.insert fe.nextTid ⟨.timer, .active⟩ }

/-- `event_clear` of an identifier that is not in `eventlist`. -/
def clearTimer (fe : FE) (eid : ℕ) : Except PyError FE :=
  match fe.timerlist.lookup eid with
  | some ⟨.timer, _⟩ => .ok { fe with timerlist := fe.timerlist.insert eid ⟨.timer, .inactive⟩ }
  | some ⟨.be, _⟩ | none => .error .exception

variable {fe : FE} {env : Env G} {w : World G}

theorem eventRegister_be :
    fe.eventRegister env { eventType := .be } w =
      .ok ⟨w, fe.registerBe, .ok (.identifier fe.nextTid)⟩ := rfl

theorem eventRegister_timer :
    fe.eventRegister env { eventType := .timer, timeValue := true } w =
      .ok ⟨w, fe.registerTimer, .ok (.identifier fe.nextTid)⟩ := rfl

theorem eventClear_timer {eid : ℕ} (h : fe.eventlist.lookup eid = none) :
    fe.eventClear env eid w = .ok (match fe.clearTimer eid with
      | .ok fe' => ⟨w, fe', .ok .done⟩
      | .error e => ⟨w, fe, .error e⟩) := by
  unfold eventClear clearTimer
  rw [h]
  dsimp only
  generalize fe.timerlist.lookup eid = entry
  rcases entry with - | ⟨eventType, status⟩
  · rfl
  · cases eventType <;> rfl

end FE

/-! ### State -/

/-- The members of the app; a `did` of `-1` is `none`. -/
structure MemDump (Z : Type) where
  memsize : ℕ
  offset : ℕ := 0
  inside : offset ≤ memsize := by omega
  ttl : ℕ := 100
  bound : ℕ := 2 ^ 22
  bound_pos : 0 < bound := by decide
  did : Option ℕ := none
  ticks : ℕ := 0
  oneWay : Bool := false
  twoWay : Bool := false
  zco : Z

/-- What the app sends to the backend. -/
inductive Note
  | memdump (data : List Bytes) (ix : ℕ)
  | memdumpDone | memdumpRunning | error | hi | waiting
  deriving DecidableEq

/-- A read that has returned. -/
structure Reading where
  offset : ℕ
  count : ℕ
  data : Bytes

/-- The piece of the memory that was asked for. -/
def Reading.piece (r : Reading) : ℕ × ℕ := (r.offset, r.count)

/-- How a session with the app ends. -/
inductive Ended
  | exited | raised (e : PyError)
  deriving DecidableEq

/-- A session with the app.  `reads` and `lost` are ghosts: the reads that have returned, and the
    chunks of a callback that has raised. -/
structure DumpRun (Z : Type) where
  app : MemDump Z
  fe : FE
  own : ℕ
  sent : List Note := []
  ended : Option Ended := none
  reads : List Reading := []
  lost : List Bytes := []

/-- A message of the backend: what `msg["cmd"]` and `msg["data"]` are, `none` if not a text. -/
structure BeMessage where
  cmd : Except PyError (Option String)
  data : Except PyError (Option String)

/-- The commands of the backend. -/
inductive DumpCommand
  | go | stop | exit
  deriving DecidableEq

/-- The comparisons of `be_callback`. -/
def BeMessage.command (m : BeMessage) : Except PyError (Option DumpCommand) := do
  let cmd ← m.cmd
  if cmd ≠ some "memdump_cmd" then return none
  let data ← m.data
  if data = some "go" then return some .go
  if data = some "stop" then return some .stop
  if data = some "exit" then return some .exit
  return none

/-! ### The methods -/

namespace MemDump

/-- The size of the next read. -/
def window (d : MemDump Z) : Except PyError {n : ℕ // 0 < n ∧ d.offset + n ≤ d.memsize} :=
  if h : d.memsize < d.offset + d.bound then
    if h₀ : d.memsize - d.offset = 0 then .error .indexError
    else .ok ⟨d.memsize - d.offset, by have hin := d.inside; omega⟩
  else .ok ⟨d.bound, d.bound_pos, by omega⟩

/-- `self.offset += bound`. -/
def advance (d : MemDump Z) (n : {n : ℕ // 0 < n ∧ d.offset + n ≤ d.memsize}) : MemDump Z :=
  { d with offset := d.offset + n, inside := n.2.2 }

theorem window_cases (d : MemDump Z) :
    d.window = .error .indexError ∧ d.offset = d.memsize ∨ ∃ n, d.window = .ok n := by
  unfold window
  have hin := d.inside
  split
  · split
    · exact .inl ⟨rfl, by omega⟩
    · exact .inr ⟨_, rfl⟩
  · exact .inr ⟨_, rfl⟩

end MemDump

namespace DumpRun

/-- `notify`. -/
def notify (s : DumpRun Z) (n : Note) : DumpRun Z := { s with sent := s.sent ++ [n] }

/-- `self.ticks += 1`. -/
def tick (s : DumpRun Z) : DumpRun Z := { s with app := { s.app with ticks := s.app.ticks + 1 } }

/-- `memdump`. -/
def memdump (read : ℕ → ℕ → Except PyError Bytes) (s : DumpRun Z) :
    Except PyError (Bytes × DumpRun Z) := do
  let n ← s.app.window
  let res ← read s.app.offset n
  return (res, { s with app := s.app.advance n
                        reads := s.reads ++ [⟨s.app.offset, n, res⟩] })

/-- What a call of `memdump` can do. -/
theorem memdump_cases (read : ℕ → ℕ → Except PyError Bytes) (s : DumpRun Z) :
    s.memdump read = .error .indexError ∧ s.app.offset = s.app.memsize ∨
      (∃ e n, s.memdump read = .error e ∧ read s.app.offset n = .error e) ∨
      ∃ (n : {n : ℕ // 0 < n ∧ s.app.offset + n ≤ s.app.memsize}) (res : Bytes),
        read s.app.offset n = .ok res ∧ s.memdump read = .ok (res, { s with
          app := s.app.advance n, reads := s.reads ++ [⟨s.app.offset, n, res⟩] }) := by
  unfold memdump
  rcases s.app.window_cases with ⟨hw, hend⟩ | ⟨n, hw⟩
  · rw [hw]
    exact .inl ⟨rfl, hend⟩
  · rw [hw]
    cases hr : read s.app.offset n with
    | error e => exact .inr (.inl ⟨e, n, by rw [ok_bind, hr]; rfl, hr⟩)
    | ok res => exact .inr (.inr ⟨n, res, hr, by rw [ok_bind, hr]; rfl⟩)

/-- A call that returns goes on. -/
theorem memdump_lt {read : ℕ → ℕ → Except PyError Bytes} {s s' : DumpRun Z} {mem : Bytes}
    (h : s.memdump read = .ok (mem, s')) :
    s'.app.memsize - s'.app.offset < s.app.memsize - s.app.offset := by
  rcases memdump_cases read s with ⟨hraise, -⟩ | ⟨e, n, hraise, -⟩ | ⟨n, res, -, hok⟩
  · rw [hraise] at h
    cases h
  · rw [hraise] at h
    cases h
  · rw [hok] at h
    cases h
    have hpos := n.2.1
    have hle := n.2.2
    show s.app.memsize - (s.app.offset + n) < _
    omega

/-- The loop of `memdump_callback`, with the chunks that it leaves, also when it raises. -/
def batch (compress : Z → Bytes → Z × Bytes) (read : ℕ → ℕ → Except PyError Bytes)
    (s : DumpRun Z) (size : ℕ) (chunkArr : List Bytes) : DumpRun Z × List Bytes × Option PyError :=
  if size < s.app.bound then
    match _h : s.memdump read with
    -- also one that the read has raised
    | .error .indexError => ({ s with app := { s.app with ttl := 0 } }, chunkArr, none)
    | .error e => (s, chunkArr, some e)
    | .ok (mem, s') =>
      let z := compress s'.app.zco mem
      batch compress read { s' with app := { s'.app with zco := z.1 } } (size + z.2.length)
        (chunkArr ++ [z.2])
  else (s, chunkArr, none)
termination_by s.app.memsize - s.app.offset
decreasing_by exact memdump_lt _h

/-- `self.ttl -= 1`. -/
def countDown (s : DumpRun Z) : DumpRun Z :=
  { s with app := { s.app with ttl := s.app.ttl - 1 } }

/-- `event_clear(self.did)`, which has returned, and `self.did = -1`. -/
def stopped (s : DumpRun Z) (fe : FE) : DumpRun Z :=
  { s with fe := fe, app := { s.app with did := none } }

/-- `self.two_way = True`. -/
def listening (s : DumpRun Z) : DumpRun Z :=
  { s with app := { s.app with twoWay := true } }

/-- `self.did = fe.event_register(..)`. -/
def started (s : DumpRun Z) : DumpRun Z :=
  { s with fe := s.fe.registerTimer, app := { s.app with did := some s.fe.nextTid } }

/-- `memdump_callback`, and whether it raises. -/
def memdumpCallback (compress : Z → Bytes → Z × Bytes) (read : ℕ → ℕ → Except PyError Bytes)
    (s : DumpRun Z) : DumpRun Z × Option PyError :=
  if 0 < s.app.ttl then
    match s.countDown.batch compress read 0 [] with
    | (s, chunkArr, some e) => ({ s with lost := chunkArr }, some e)
    -- `chunk_arr[0]`
    | (s, [], none) => ({ s with lost := [] }, some .indexError)
    | (s, chunkArr, none) => ((s.notify (.memdump chunkArr s.app.ticks)).tick, none)
  else
    -- `event_clear(-1)` raises
    match s.app.did with
    | none => (s, some .exception)
    | some did =>
      match s.fe.clearTimer did with
      | .error e => (s, some e)
      | .ok fe => (((s.stopped fe).notify .memdumpDone).tick, none)

/-- `be_callback`, and how it ends the session. -/
def beCallback (m : BeMessage) (s : DumpRun Z) : DumpRun Z × Option Ended :=
  let s := s.listening
  match m.command with
  | .error e => (s, some (.raised e))
  | .ok (some .go) =>
    if s.app.did.isSome then (s.notify .error, none)
    else ((s.notify .memdumpRunning).started, none)
  | .ok (some .stop) =>
    match s.app.did with
    | none => (s, none)
    | some did =>
      match s.fe.clearTimer did with
      | .error e => (s, some (.raised e))
      | .ok fe => (s.stopped fe, none)
  | .ok (some .exit) => (s, some .exited)
  | .ok none => (s, none)

/-- `timer_callback`. -/
def timerCallback (s : DumpRun Z) : DumpRun Z :=
  if !s.app.oneWay then
    let s := s.notify .hi
    { s with app := { s.app with oneWay := true } }.tick
  else if !s.app.twoWay then (s.notify .waiting).tick
  else s.tick

/-- The constructor, with a fresh frontend. -/
def start (memsize : ℕ) (zco : Z) (identR : Bytes) : DumpRun Z :=
  let fe := FE.registerBe { identR }
  { app := { memsize, zco, inside := Nat.zero_le _ }
    fe := fe.registerTimer
    own := fe.nextTid }

/-- After a callback. -/
def finish (p : DumpRun Z × Option Ended) : DumpRun Z := { p.1 with ended := p.2 }

end DumpRun

/-! ### Sessions -/

/-- What the main loop of the frontend does with the app: it hands over a message of the backend,
    calls an active timer, or deletes one that is not active. -/
inductive DumpInput
  | be (m : BeMessage)
  | fires (tid : ℕ) (read : ℕ → ℕ → Except PyError Bytes)
  | cleanup (tid : ℕ)

/-- The step function of a session. -/
def DumpRun.next (compress : Z → Bytes → Z × Bytes) (s : DumpRun Z) (i : DumpInput) :
    Option (DumpRun Z) :=
  if s.ended.isSome then none
  else match i with
  | .be m => some (finish (s.beCallback m))
  | .fires tid read =>
    if s.fe.timerlist.lookup tid ≠ some ⟨.timer, .active⟩ then none
    else if tid = s.own then some s.timerCallback
    else
      let p := s.memdumpCallback compress read
      some (finish (p.1, p.2.map .raised))
  | .cleanup tid =>
    if s.fe.timerlist.lookup tid ≠ some ⟨.timer, .inactive⟩ then none
    else some { s with fe := { s.fe with timerlist := s.fe.timerlist.erase tid } }

/-- The sessions with a guest of a given size. -/
def dumpSystem (compress : Z → Bytes → Z × Bytes) (memsize : ℕ) (zco : Z) :
    TransitionSystem (DumpRun Z) DumpInput where
  init s := ∃ identR, s = DumpRun.start memsize zco identR
  step s i s' := s.next compress i = some s'

/-! ### The loop -/

section Batch

variable (compress : Z → Bytes → Z × Bytes) (read : ℕ → ℕ → Except PyError Bytes)

/-- The compressor, fed with one piece after the other. -/
def feed : Z → List Bytes → Z × List Bytes
  | z, [] => (z, [])
  | z, mem :: mems =>
    let rest := feed (compress z mem).1 mems
    (rest.1, (compress z mem).2 :: rest.2)

theorem feed_append (z : Z) (before after : List Bytes) :
    feed compress z (before ++ after) = ((feed compress (feed compress z before).1 after).1,
      (feed compress z before).2 ++ (feed compress (feed compress z before).1 after).2) := by
  induction before generalizing z with
  | nil => rfl
  | cons mem before ih =>
    show ((feed compress (compress z mem).1 (before ++ after)).1,
      _ :: (feed compress (compress z mem).1 (before ++ after)).2) = _
    rw [ih]
    rfl

/-- How many bytes a batch has. -/
def batchSize (chunkArr : List Bytes) : ℕ := chunkArr.flatten.length

/-- What the loop does: it reads on, and feeds what it has read to the compressor. -/
structure Batched (s s' : DumpRun Z) (zs : List Bytes) : Prop where
  goesOn : ∃ rs, s'.reads = s.reads ++ rs ∧
    Tiles s.app.offset (rs.map Reading.piece) s'.app.offset ∧
    feed compress s.app.zco (rs.map Reading.data) = (s'.app.zco, zs) ∧
    ∀ r ∈ rs, read r.offset r.count = .ok r.data
  fe : s'.fe = s.fe
  own : s'.own = s.own
  sent : s'.sent = s.sent
  ended : s'.ended = s.ended
  lost : s'.lost = s.lost
  memsize : s'.app.memsize = s.app.memsize
  bound : s'.app.bound = s.app.bound
  did : s'.app.did = s.app.did
  ticks : s'.app.ticks = s.app.ticks
  ttl : s'.app.ttl ≤ s.app.ttl

variable {compress read}

/-- The loop ends at once. -/
theorem Batched.refl (s : DumpRun Z) : Batched compress read s s [] where
  goesOn := ⟨[], (List.append_nil _).symm, tiles_nil, rfl, nofun⟩
  fe := rfl
  own := rfl
  sent := rfl
  ended := rfl
  lost := rfl
  memsize := rfl
  bound := rfl
  did := rfl
  ticks := rfl
  ttl := le_rfl

/-- One round, and what comes after it. -/
theorem Batched.cons {s s' : DumpRun Z} {zs : List Bytes} {mem : Bytes}
    (n : {n : ℕ // 0 < n ∧ s.app.offset + n ≤ s.app.memsize}) (hmem : read s.app.offset n = .ok mem)
    (h : Batched compress read { s with
      app := { s.app.advance n with zco := (compress s.app.zco mem).1 }
      reads := s.reads ++ [⟨s.app.offset, n, mem⟩] } s' zs) :
    Batched compress read s s' ((compress s.app.zco mem).2 :: zs) where
  goesOn := by
    obtain ⟨rs, hreads, htiles, hfeed, hrs⟩ := h.goesOn
    refine ⟨⟨s.app.offset, n, mem⟩ :: rs, ?_, ⟨rfl, htiles⟩, ?_, ?_⟩
    · rw [hreads, List.append_assoc]
      rfl
    · show ((feed compress (compress s.app.zco mem).1 (rs.map Reading.data)).1,
        _ :: (feed compress (compress s.app.zco mem).1 (rs.map Reading.data)).2) = _
      rw [show feed compress (compress s.app.zco mem).1 (rs.map Reading.data) = _ from hfeed]
    · exact List.forall_mem_cons.mpr ⟨hmem, hrs⟩
  fe := h.fe
  own := h.own
  sent := h.sent
  ended := h.ended
  lost := h.lost
  memsize := h.memsize
  bound := h.bound
  did := h.did
  ticks := h.ticks
  ttl := h.ttl

variable (compress)

/-- **What the loop does**, whatever the reads do. -/
theorem batch_spec (read : ℕ → ℕ → Except PyError Bytes) (s : DumpRun Z) (size : ℕ)
    (chunkArr : List Bytes) : ∃ zs, (s.batch compress read size chunkArr).2.1 = chunkArr ++ zs ∧
      Batched compress read s (s.batch compress read size chunkArr).1 zs := by
  fun_induction DumpRun.batch compress read s size chunkArr with
  | case1 s size chunkArr hlt hraise =>
    exact ⟨[], (List.append_nil _).symm,  { Batched.refl s with ttl := Nat.zero_le _ }⟩
  | case2 s size chunkArr hlt e hne hraise => exact ⟨[], (List.append_nil _).symm, .refl s⟩
  | case3 s size chunkArr hlt mem s₁ hok z ih =>
    obtain ⟨zs, hzs, hrest⟩ := ih
    rcases s.memdump_cases read with ⟨hm, -⟩ | ⟨e, n, hm, -⟩ | ⟨n, res, hres, hm⟩
    · rw [hok] at hm
      cases hm
    · rw [hok] at hm
      cases hm
    · rw [hok] at hm
      cases hm
      exact ⟨_ :: zs, by rw [hzs, List.append_assoc]; rfl, .cons n hres hrest⟩
  | case4 s size chunkArr hge => exact ⟨[], (List.append_nil _).symm, .refl s⟩

/-- **When the loop ends**, if the reads return: the batch is full, or the memory has ended. -/
theorem batch_full {read : ℕ → ℕ → Except PyError Bytes} (hread : ∀ a n, ∃ mem, read a n = .ok mem)
    (s : DumpRun Z) (size : ℕ) (chunkArr : List Bytes) (hsize : size = batchSize chunkArr) :
    let p := s.batch compress read size chunkArr
    p.2.2 = none ∧ (p.1.app.ttl = s.app.ttl ∧ s.app.bound ≤ batchSize p.2.1 ∨
      p.1.app.ttl = 0 ∧ p.1.app.offset = p.1.app.memsize) := by
  fun_induction DumpRun.batch compress read s size chunkArr with
  | case1 s size chunkArr hlt hraise =>
    rcases s.memdump_cases read with ⟨-, hend⟩ | ⟨e, n, -, hr⟩ | ⟨n, res, -, hm⟩
    · exact ⟨rfl, .inr ⟨rfl, hend⟩⟩
    · obtain ⟨mem, hmem⟩ := hread s.app.offset n
      rw [hmem] at hr
      cases hr
    · rw [hraise] at hm
      cases hm
  | case2 s size chunkArr hlt e hne hraise =>
    rcases s.memdump_cases read with ⟨hm, -⟩ | ⟨e, n, -, hr⟩ | ⟨n, res, -, hm⟩
    · rw [hraise] at hm
      exact absurd (Except.error.inj hm) hne
    · obtain ⟨mem, hmem⟩ := hread s.app.offset n
      rw [hmem] at hr
      cases hr
    · rw [hraise] at hm
      cases hm
  | case3 s size chunkArr hlt mem s₁ hok z ih =>
    have hrest := ih (by simp [batchSize, hsize])
    rcases s.memdump_cases read with ⟨hm, -⟩ | ⟨e, n, hm, -⟩ | ⟨n, res, -, hm⟩
    · rw [hok] at hm
      cases hm
    · rw [hok] at hm
      cases hm
    · rw [hok] at hm
      cases hm
      exact hrest
  | case4 s size chunkArr hge =>
    have hfull : s.app.bound ≤ batchSize chunkArr := by omega
    exact ⟨rfl, .inl ⟨rfl, hfull⟩⟩

end Batch

/-! ### The callbacks -/

section Callbacks

variable {compress : Z → Bytes → Z × Bytes} {read : ℕ → ℕ → Except PyError Bytes}

/-- All reads return. -/
def Returns (read : ℕ → ℕ → Except PyError Bytes) : Prop := ∀ a n, ∃ mem, read a n = .ok mem

/-- The ways in which `memdump_callback` ends: with a batch, with chunks that are lost, with the
    last message, or with an identifier that cannot be cleared. -/
inductive CalledBack (compress : Z → Bytes → Z × Bytes) (read : ℕ → ℕ → Except PyError Bytes)
    (s : DumpRun Z) : DumpRun Z × Option PyError → Prop
  | batch {s' : DumpRun Z} {zs : List Bytes} (httl : 0 < s.app.ttl)
      (hb : Batched compress read s.countDown s' zs)
      (hfull : Returns read → s'.app.ttl = s.app.ttl - 1 ∧ s.app.bound ≤ batchSize zs ∨
        s'.app.ttl = 0 ∧ s'.app.offset = s'.app.memsize) :
      CalledBack compress read s ((s'.notify (.memdump zs s'.app.ticks)).tick, none)
  | lost {s' : DumpRun Z} {zs : List Bytes} {e : PyError} (httl : 0 < s.app.ttl)
      (hb : Batched compress read s.countDown s' zs)
      (hend : Returns read → s'.app.offset = s'.app.memsize) :
      CalledBack compress read s ({ s' with lost := zs }, some e)
  | done {did : ℕ} {fe : FE} (httl : s.app.ttl = 0) (hdid : s.app.did = some did)
      (hclear : s.fe.clearTimer did = .ok fe) :
      CalledBack compress read s (((s.stopped fe).notify .memdumpDone).tick, none)
  | stuck {e : PyError}
      (hstuck : ∀ did fe, s.app.did = some did → s.fe.clearTimer did ≠ .ok fe) :
      CalledBack compress read s (s, some e)

/-- **What a call of the timer does.** -/
theorem memdumpCallback_cases (compress : Z → Bytes → Z × Bytes)
    (read : ℕ → ℕ → Except PyError Bytes) (s : DumpRun Z) :
    CalledBack compress read s (s.memdumpCallback compress read) := by
  unfold DumpRun.memdumpCallback
  by_cases httl : 0 < s.app.ttl
  · rw [if_pos httl]
    obtain ⟨zs, hzs, hb⟩ := batch_spec compress read s.countDown 0 []
    have hfull := fun (hread : Returns read) =>
      batch_full compress hread s.countDown 0 [] rfl
    generalize s.countDown.batch compress read 0 [] = p at hzs hb hfull ⊢
    obtain ⟨s', chunkArr, r⟩ := p
    rw [List.nil_append] at hzs
    dsimp only at hzs hb hfull ⊢
    subst hzs
    cases r with
    | some e =>
      refine .lost httl hb fun hread => ?_
      cases (hfull hread).1
    | none =>
      cases chunkArr with
      | nil =>
        refine .lost httl hb fun hread => ?_
        rcases (hfull hread).2 with ⟨-, hempty⟩ | ⟨-, hend⟩
        · exact absurd hempty (Nat.not_le.mpr s.app.bound_pos)
        · exact hend
      | cons z zs => exact .batch httl hb fun hread => (hfull hread).2
  · rw [if_neg httl]
    have hzero : s.app.ttl = 0 := by omega
    cases hdid : s.app.did with
    | none =>
      refine .stuck fun did fe h => ?_
      rw [hdid] at h
      cases h
    | some did =>
      dsimp only
      cases hclear : s.fe.clearTimer did with
      | error e =>
        refine .stuck fun did' fe h => ?_
        rw [hdid] at h
        cases h
        rw [hclear]
        nofun
      | ok fe => exact .done hzero hdid hclear

/-- The ways in which `be_callback` ends. -/
inductive BeCalledBack (m : BeMessage) (s : DumpRun Z) : DumpRun Z × Option Ended → Prop
  | malformed {e : PyError} (hm : m.command = .error e) :
      BeCalledBack m s (s.listening, some (.raised e))
  | kept {r : Option Ended} (hr : ∀ e, r ≠ some (.raised e)) : BeCalledBack m s (s.listening, r)
  | running : BeCalledBack m s (s.listening.notify .error, none)
  | started (hdid : s.app.did = none) :
      BeCalledBack m s ((s.listening.notify .memdumpRunning).started, none)
  | cleared {did : ℕ} {fe : FE} (hdid : s.app.did = some did)
      (hclear : s.fe.clearTimer did = .ok fe) : BeCalledBack m s (s.listening.stopped fe, none)
  | stuck {did : ℕ} {e : PyError} (hdid : s.app.did = some did)
      (hclear : s.fe.clearTimer did = .error e) : BeCalledBack m s (s.listening, some (.raised e))

/-- **What a message of the backend does.** -/
theorem beCallback_cases (m : BeMessage) (s : DumpRun Z) : BeCalledBack m s (s.beCallback m) := by
  unfold DumpRun.beCallback
  cases hm : m.command with
  | error e => exact .malformed hm
  | ok command =>
    dsimp only
    match command with
    | some .go =>
      cases hdid : s.listening.app.did with
      | some did => exact .running
      | none => exact .started hdid
    | some .stop =>
      cases hdid : s.listening.app.did with
      | none => exact .kept nofun
      | some did =>
        dsimp only
        cases hclear : s.listening.fe.clearTimer did with
        | error e => exact .stuck hdid hclear
        | ok fe => exact .cleared hdid hclear
    | some .exit => exact .kept nofun
    | none => exact .kept nofun

end Callbacks

end Furnace.App
