import Furnace.Lib.Relate
import Furnace.Vmi.Exchange
import Furnace.Vmi.PluginRegistry

namespace Furnace.Vmi

open Furnace.Proto Furnace.Lib

/-!
# Requests of different clients

One `furnace` object serves all clients, and what one request leaves behind is there when the
next one arrives.  Two runs of `process_protobuf` on the same bytes are compared, after
histories that agree on the guest and on the registry.

* `Alike w w'` — the worlds agree on what a reply can depend on; the addresses of allocations,
  the owners and the record of operations may differ.
* `Env.Agree e e'` — the same guest, whatever lies behind the bytes of a bulk read.
* `Body.Relates` — the body of a handler replies the same in two such runs.  All do but that
  of `READ_KSYM`, which stores its buffer as a C string: `KsymTerminated` is its condition.
* `reply_independent` — **the replies are the same** when every `READ_KSYM` that is served
  reads a NUL.
-/

variable {G : Type}

/-! ### Worlds that agree -/

/-- What the registry shows of an entry: its identifier, and what its trap waits for. -/
def EventItem.shape (ei : EventItem) : ℕ × Option TrapKind := (ei.id, ei.event.map Trap.kind)

/-- Two worlds that agree on all that a reply can depend on. -/
structure Alike (w w' : World G) : Prop where
  guest : w.guest = w'.guest
  events : ∀ k, (w.events.lookup k).map EventItem.shape = (w'.events.lookup k).map EventItem.shape
  running : w.syscallPluginOwner.isSome = w'.syscallPluginOwner.isSome
  eventId : w.syscallPluginEventId = w'.syscallPluginEventId
  ident : w.scratchIdent.isEmpty = w'.scratchIdent.isEmpty

/-- The operations that are given no address, and answer nothing but what they read. -/
def ExtOp.plain : ExtOp → Bool
  | .readBuf _ _ | .addTrap _ | .removeTrap _ => false
  | _ => true

/-- Two environments that are one guest: they may differ in what lies behind the bytes of a
    bulk read, and neither looks at the pointer that a trap carries. -/
structure Env.Agree (e e' : Env G) : Prop where
  fuel : e.fuel = e'.fuel
  plain : ∀ op g, op.plain = true → e.exec op g = e'.exec op g
  readBuf : ∀ l n g, (e.exec (.readBuf l n) g).2 = (e'.exec (.readBuf l n) g).2 ∧
    (e.exec (.readBuf l n) g).1.1 = (e'.exec (.readBuf l n) g).1.1 ∧
    (e.exec (.readBuf l n) g).1.2.bytes = (e'.exec (.readBuf l n) g).1.2.bytes
  addTrap : ∀ t t' g, t.kind = t'.kind → e.exec (.addTrap t) g = e'.exec (.addTrap t') g
  removeTrap : ∀ t t' g, t.map Trap.kind = t'.map Trap.kind →
    (e.exec (.removeTrap t) g).2 = (e'.exec (.removeTrap t') g).2

/-- DRAKVUF does not look at the pointer that a trap carries: it hands it back to the callback. -/
structure Env.IgnoresData (env : Env G) : Prop where
  addTrap : ∀ t t' g, t.kind = t'.kind → env.exec (.addTrap t) g = env.exec (.addTrap t') g
  removeTrap : ∀ t t' g, t.map Trap.kind = t'.map Trap.kind →
    (env.exec (.removeTrap t) g).2 = (env.exec (.removeTrap t') g).2

/-- Two heaps, one guest. -/
theorem Env.IgnoresData.agree {env : Env G} (h : env.IgnoresData) (leftover leftover' : ℕ → Bytes) :
    (env.withLeftover leftover).Agree (env.withLeftover leftover') where
  fuel := rfl
  plain op g hop := by
    cases op
    case readBuf => cases hop
    all_goals rfl
  readBuf l n g := ⟨rfl, rfl, rfl⟩
  addTrap := h.addTrap
  removeTrap := h.removeTrap

section Alike

variable {e e' : Env G} {w w' : World G}

/-- A plain operation answers the same. -/
theorem Alike.exec (h : Alike w w') (he : e.Agree e') (op : ExtOp) (hop : op.plain = true) :
    ∃ res v v', w.exec e op = (res, v) ∧ w'.exec e' op = (res, v') ∧ Alike v v' := by
  refine ⟨(e'.exec op w'.guest).1, (w.exec e op).2, (w'.exec e' op).2, ?_, rfl, ?_⟩
  · unfold World.exec
    rw [h.guest, he.plain op _ hop]
  · refine ⟨?_, h.events, h.running, h.eventId, h.ident⟩
    show (e.exec op w.guest).2 = (e'.exec op w'.guest).2
    rw [h.guest, he.plain op _ hop]

theorem Alike.mem_events (h : Alike w w') (k : ℕ) : k ∈ w.events ↔ k ∈ w'.events := by
  rw [← AList.lookup_isSome, ← AList.lookup_isSome]
  have hk := congrArg Option.isSome (h.events k)
  rw [Option.isSome_map, Option.isSome_map] at hk
  rw [hk]

/-- The maps have equally many entries. -/
theorem Alike.length (h : Alike w w') : w.events.entries.length = w'.events.entries.length := by
  have hperm : w.events.keys.Perm w'.events.keys := by
    rw [List.perm_ext_iff_of_nodup w.events.keys_nodup w'.events.keys_nodup]
    exact h.mem_events
  simpa [AList.keys, List.keys] using hperm.length_eq

theorem Alike.firstFree (h : Alike w w') : firstFree w.events = firstFree w'.events := by
  have hset : {i | i ∉ w.events} = {i | i ∉ w'.events} := by
    ext i
    exact not_congr (h.mem_events i)
  have hleast := firstFree_isLeast w.events
  rw [hset] at hleast
  exact hleast.unique (firstFree_isLeast w'.events)

/-- The lookups after a slot was filled on both sides. -/
theorem map_lookup_insert {events events' : AList fun _ : ℕ => EventItem}
    (h : ∀ k, (events.lookup k).map EventItem.shape = (events'.lookup k).map EventItem.shape)
    {i : ℕ} {ei ei' : EventItem} (hshape : ei.shape = ei'.shape) (k : ℕ) :
    ((events.insert i ei).lookup k).map EventItem.shape =
      ((events'.insert i ei').lookup k).map EventItem.shape := by
  by_cases hk : k = i
  · subst hk
    rw [AList.lookup_insert, AList.lookup_insert]
    exact congrArg some hshape
  · rw [AList.lookup_insert_ne hk, AList.lookup_insert_ne hk]
    exact h k

/-- The lookups after a slot was emptied on both sides. -/
theorem map_lookup_erase {events events' : AList fun _ : ℕ => EventItem}
    (h : ∀ k, (events.lookup k).map EventItem.shape = (events'.lookup k).map EventItem.shape)
    (i k : ℕ) :
    ((events.erase i).lookup k).map EventItem.shape =
      ((events'.erase i).lookup k).map EventItem.shape := by
  by_cases hk : k = i
  · subst hk
    rw [AList.lookup_erase, AList.lookup_erase]
  · rw [AList.lookup_erase_ne hk, AList.lookup_erase_ne hk]
    exact h k

/-- A slot was filled on both sides. -/
theorem Alike.insert (h : Alike w w') (i : ℕ) {ei ei' : EventItem} (hshape : ei.shape = ei'.shape) :
    Alike { w with events := w.events.insert i ei } { w' with events := w'.events.insert i ei' } :=
  ⟨h.guest, map_lookup_insert h.events hshape, h.running, h.eventId, h.ident⟩

/-- A slot was emptied on both sides. -/
theorem Alike.erase (h : Alike w w') {i i' : ℕ} (hi : i = i') (freed freed' : List ℕ) :
    Alike { w with events := w.events.erase i, freed := freed }
      { w' with events := w'.events.erase i', freed := freed' } := by
  subst hi
  exact ⟨h.guest, map_lookup_erase h.events i, h.running, h.eventId, h.ident⟩

/-- A counter of allocations does not show. -/
theorem Alike.allocated (h : Alike w w') (n n' : ℕ) :
    Alike { w with nextAlloc := n } { w' with nextAlloc := n' } :=
  ⟨h.guest, h.events, h.running, h.eventId, h.ident⟩

end Alike

/-! ### Bodies -/

/-- Two results of a body: the same reply, in worlds that agree. -/
def SameReply (p q : World G × Reply) : Prop := Alike p.1 q.1 ∧ p.2 = q.2

/-- Whether a body replies the same in worlds that agree. -/
def Body.Relates (body : Body G) : Prop :=
  ∀ e e', Env.Agree e e' → ∀ access w w', Alike w w' →
    Both SameReply (body e access w) (body e' access w')

/-- A request that cannot be read fails on both sides. -/
theorem reading_both {f : Env G → Msg → World G → Except Fault (World G × Reply)} {e e' : Env G}
    {access : Except Fault Msg} {w w' : World G}
    (hf : ∀ m, access = .ok m → Both SameReply (f e m w) (f e' m w')) :
    Both SameReply (reading f e access w) (reading f e' access w') := by
  cases access with
  | error err => exact .error err
  | ok m => exact hf m rfl

theorem reading_relates {f : Env G → Msg → World G → Except Fault (World G × Reply)}
    (hf : ∀ e e', Env.Agree e e' → ∀ m w w', Alike w w' →
      Both SameReply (f e m w) (f e' m w')) : (reading f).Relates :=
  fun e e' he _ w w' hw => reading_both fun m _ => hf e e' he m w w' hw

theorem readNumBody_relates (wd : Width) (s : Space) : (readNumBody wd s : Body G).Relates := by
  apply reading_relates
  intro e e' he m w w' hw
  cases location s m with
  | none => exact .ok ⟨hw, rfl⟩
  | some l =>
    obtain ⟨res, v, v', h, h', hv⟩ := hw.exec he (.readNum wd l) rfl
    dsimp only
    rw [h, h']
    exact .ok ⟨hv, rfl⟩

theorem readAddrBody_relates (s : Space) : (readAddrBody s : Body G).Relates := by
  apply reading_relates
  intro e e' he m w w' hw
  cases location s m with
  | none => exact .ok ⟨hw, rfl⟩
  | some l =>
    obtain ⟨res, v, v', h, h', hv⟩ := hw.exec he (.readAddr l) rfl
    dsimp only
    rw [h, h']
    exact .ok ⟨hv, rfl⟩

theorem readStrBody_relates (s : Space) : (readStrBody s : Body G).Relates := by
  apply reading_relates
  intro e e' he m w w' hw
  cases location s m with
  | none => exact .ok ⟨hw, rfl⟩
  | some l =>
    obtain ⟨res, v, v', h, h', hv⟩ := hw.exec he (.readStr l) rfl
    dsimp only
    rw [h, h']
    cases res with
    | none => exact .ok ⟨hv, rfl⟩
    | some str => exact .ok ⟨hv, rfl⟩

theorem readStrPaBody_relates : (readStrPaBody : Body G).Relates := by
  apply reading_relates
  intro e e' he m w w' hw
  cases location .pa m with
  | none => exact .ok ⟨hw, rfl⟩
  | some l =>
    obtain ⟨res, v, v', h, h', hv⟩ := hw.exec he (.readStr l) rfl
    dsimp only
    rw [h, h']
    cases res with
    | none => exact .error _
    | some str => exact .ok ⟨hv, rfl⟩

/-- The same count, or none, on both sides. -/
theorem allocBuffer_relates {e e' : Env G} (he : e.Agree e') (m : Msg) {w w' : World G}
    (hw : Alike w w') :
    (allocBuffer e m w).1 = (allocBuffer e' m w').1 ∧
      Alike (allocBuffer e m w).2 (allocBuffer e' m w').2 := by
  unfold allocBuffer
  cases count? m with
  | none => exact ⟨rfl, hw⟩
  | some n =>
    obtain ⟨res, v, v', h, h', hv⟩ := hw.exec he (.malloc (.buffer n)) rfl
    dsimp only
    rw [h, h']
    exact ⟨rfl, hv⟩

/-- A bulk read leaves the same bytes, apart from what was behind them. -/
theorem Alike.exec_readBuf {e e' : Env G} (he : e.Agree e') {w w' : World G} (hw : Alike w w')
    (l : Location) (n : ℕ) :
    ∃ st bytes tail tail' v v', w.exec e (.readBuf l n) = ((st, ⟨bytes, tail⟩), v) ∧
      w'.exec e' (.readBuf l n) = ((st, ⟨bytes, tail'⟩), v') ∧ Alike v v' := by
  obtain ⟨hguest, hst, hbytes⟩ := he.readBuf l n w'.guest
  refine ⟨(e'.exec (.readBuf l n) w'.guest).1.1, (e'.exec (.readBuf l n) w'.guest).1.2.bytes,
    (e.exec (.readBuf l n) w'.guest).1.2.tail, (e'.exec (.readBuf l n) w'.guest).1.2.tail,
    (w.exec e (.readBuf l n)).2, (w'.exec e' (.readBuf l n)).2, ?_, rfl, ?_⟩
  · unfold World.exec
    rw [hw.guest, ← hst, ← hbytes]
  · refine ⟨?_, hw.events, hw.running, hw.eventId, hw.ident⟩
    show (e.exec (.readBuf l n) w.guest).2 = (e'.exec (.readBuf l n) w'.guest).2
    rw [hw.guest, hguest]

theorem readBufBody_relates (s : Space) : (readBufBody s : Body G).Relates := by
  apply reading_relates
  intro e e' he m w w' hw
  obtain ⟨hcount, hv⟩ := allocBuffer_relates he m hw
  dsimp only
  rw [hcount]
  cases location s m with
  | none => exact .ok ⟨hv, rfl⟩
  | some l =>
    cases (allocBuffer e' m w').1 with
    | none => exact .ok ⟨hv, rfl⟩
    | some n =>
      obtain ⟨st, bytes, tail, tail', v, v', h, h', hv'⟩ := hv.exec_readBuf he l n
      dsimp only
      rw [h, h']
      -- `bytes_read` ends the copy
      exact .ok ⟨hv', rfl⟩

theorem writeNumBody_relates (wd : Width) (s : Space) : (writeNumBody wd s : Body G).Relates := by
  apply reading_relates
  intro e e' he m w w' hw
  cases location s m with
  | none => exact .ok ⟨hw, rfl⟩
  | some l =>
    cases widthValue? wd m with
    | none => exact .ok ⟨hw, rfl⟩
    | some x =>
      obtain ⟨res, v, v', h, h', hv⟩ := hw.exec he (.writeNum wd l x) rfl
      dsimp only
      rw [h, h']
      exact .ok ⟨hv, rfl⟩

theorem writeBufBody_relates (s : Space) : (writeBufBody s : Body G).Relates := by
  apply reading_relates
  intro e e' he m w w' hw
  cases location s m with
  | none => exact .ok ⟨hw, rfl⟩
  | some l =>
    cases writeBuffer? m with
    | none => exact .ok ⟨hw, rfl⟩
    | some nb =>
      obtain ⟨res, v, v', h, h', hv⟩ := hw.exec he (.writeBuf l nb.1 nb.2) rfl
      dsimp only
      rw [h, h']
      exact .ok ⟨hv, rfl⟩

/-- A translation is asked for when all its fields are set. -/
theorem translateBody_relates {α : Type} (parse : Msg → Option α)
    {ask : Env G → α → World G → (Status × Option UInt64) × World G}
    {run : Env G → Msg → World G → Option ((Status × Option UInt64) × World G)}
    (hrun : ∀ e m w, run e m w = (parse m).map fun a => ask e a w)
    (hask : ∀ e e', Env.Agree e e' → ∀ a w w', Alike w w' →
      ∃ res v v', ask e a w = (res, v) ∧ ask e' a w' = (res, v') ∧ Alike v v') :
    (translateBody run).Relates := by
  apply reading_relates
  intro e e' he m w w' hw
  rw [hrun, hrun]
  cases parse m with
  | none => exact .ok ⟨hw, rfl⟩
  | some a =>
    obtain ⟨res, v, v', h, h', hv⟩ := hask e e' he a w w' hw
    dsimp only [Option.map_some]
    rw [h, h']
    exact .ok ⟨hv, rfl⟩

theorem lookupBody_relates {run : Env G → Msg → World G → (Bool × Option UInt64) × World G}
    (hrun : ∀ e e', Env.Agree e e' → ∀ m w w', Alike w w' →
      ∃ res v v', run e m w = (res, v) ∧ run e' m w' = (res, v') ∧ Alike v v') :
    (lookupBody run).Relates := by
  apply reading_relates
  intro e e' he m w w' hw
  obtain ⟨res, v, v', h, h', hv⟩ := hrun e e' he m w w' hw
  dsimp only
  rw [h, h']
  exact .ok ⟨hv, rfl⟩

theorem stringBody_relates {op : Env G → World G → Option Bytes × World G}
    (hop : ∀ e e', Env.Agree e e' → ∀ w w', Alike w w' →
      ∃ res v v', op e w = (res, v) ∧ op e' w' = (res, v') ∧ Alike v v') :
    (stringBody op).Relates := by
  intro e e' he access w w' hw
  obtain ⟨res, v, v', h, h', hv⟩ := hop e e' he w w' hw
  unfold stringBody
  rw [h, h']
  cases res with
  | none => exact .error _
  | some s => exact .ok ⟨hv, rfl⟩

theorem numberBody_relates {α : Type} {ask : Env G → World G → α × World G} (number : α → Val)
    (hask : ∀ e e', Env.Agree e e' → ∀ w w', Alike w w' →
      ∃ res v v', ask e w = (res, v) ∧ ask e' w' = (res, v') ∧ Alike v v') :
    (numberBody fun env w => (number (ask env w).1, (ask env w).2)).Relates := by
  intro e e' he access w w' hw
  obtain ⟨res, v, v', h, h', hv⟩ := hask e e' he w w' hw
  dsimp only [numberBody]
  rw [h, h']
  exact .ok ⟨hv, rfl⟩

theorem notImplementedBody_relates : (notImplementedBody : Body G).Relates :=
  fun _ _ _ _ _ _ hw => .ok ⟨hw, rfl⟩

theorem effectBody_relates {op : ExtOp} (hop : op.plain = true) :
    (effectBody op : Body G).Relates := by
  intro e e' he access w w' hw
  obtain ⟨res, v, v', h, h', hv⟩ := hw.exec he op hop
  unfold effectBody
  rw [h, h']
  exact .ok ⟨hv, rfl⟩

theorem eventsBody_relates (b : Bool) : (eventsBody b : Body G).Relates :=
  fun _ _ _ _ _ _ hw => .ok ⟨⟨hw.guest, hw.events, hw.running, hw.eventId, hw.ident⟩, rfl⟩

/-- The walk through the task list. -/
theorem processLoop_relates {e e' : Env G} (he : e.Agree e')
    {head tasksOffset pidOffset nameOffset : UInt64} (fuel : ℕ) (cur next : UInt64) (pid : Int32)
    (procs : List Process) (st : Status) {w w' : World G} (hw : Alike w w') :
    Both (fun p q => p.1 = q.1 ∧ p.2.1 = q.2.1 ∧ Alike p.2.2 q.2.2)
      (processLoop e head tasksOffset pidOffset nameOffset fuel cur next pid procs st w)
      (processLoop e' head tasksOffset pidOffset nameOffset fuel cur next pid procs st w') := by
  induction fuel generalizing cur next pid procs st w w' with
  | zero => exact .error _
  | succ fuel ih =>
    cases st with
    | failure =>
      rw [processLoop, processLoop]
      exact .ok ⟨rfl, rfl, hw⟩
    | success =>
      rw [processLoop, processLoop]
      obtain ⟨pidRes, v₁, v₁', h₁, h₁', hv₁⟩ :=
        hw.exec he (.readNum .w32 (.va (cur - tasksOffset + pidOffset) 0)) rfl
      obtain ⟨name, v₂, v₂', h₂, h₂', hv₂⟩ :=
        hv₁.exec he (.readStr (.va (cur - tasksOffset + nameOffset) 0)) rfl
      obtain ⟨nextRes, v₃, v₃', h₃, h₃', hv₃⟩ := hv₂.exec he (.readAddr (.va next 0)) rfl
      dsimp only
      rw [h₁, h₁']
      dsimp only
      rw [h₂, h₂']
      cases name with
      | none => exact .error _
      | some name =>
        dsimp only
        rw [h₃, h₃']
        dsimp only
        split
        · exact .ok ⟨rfl, rfl, hv₃⟩
        · exact ih _ _ _ _ _ hv₃

theorem processListBody_relates : (processListBody : Body G).Relates := by
  intro e e' he access w w' hw
  obtain ⟨head, v₁, v₁', h₁, h₁', hv₁⟩ := hw.exec he (.translateKsym2v (literal "init_task")) rfl
  obtain ⟨tasks, v₂, v₂', h₂, h₂', hv₂⟩ := hv₁.exec he (.getOffset (literal "linux_tasks")) rfl
  obtain ⟨name, v₃, v₃', h₃, h₃', hv₃⟩ := hv₂.exec he (.getOffset (literal "linux_name")) rfl
  obtain ⟨pid, v₄, v₄', h₄, h₄', hv₄⟩ := hv₃.exec he (.getOffset (literal "linux_pid")) rfl
  obtain ⟨next, v₅, v₅', h₅, h₅', hv₅⟩ :=
    hv₄.exec he (.readAddr (.va (head.2.getD 0 + tasks.2.getD 0) 0)) rfl
  unfold processListBody
  rw [h₁, h₁']
  dsimp only
  rw [h₂, h₂']
  dsimp only
  rw [h₃, h₃']
  dsimp only
  rw [h₄, h₄']
  dsimp only
  rw [h₅, h₅', he.fuel]
  refine (processLoop_relates he _ _ _ _ _ _ hv₅).bind ?_
  rintro ⟨procs, st, u⟩ ⟨procs', st', u'⟩ ⟨hprocs, hst, hu⟩
  cases hprocs
  cases hst
  exact .ok ⟨hu, rfl⟩

/-! ### `READ_KSYM` -/

/-- What a `READ_KSYM` reads, when it reads anything, has a NUL among the bytes that were
    read. -/
def KsymTerminated (env : Env G) (m : Msg) (w : World G) : Prop :=
  ∀ l n, location .ksym m = some l → (allocBuffer env m w).1 = some n →
    0 ∈ ((allocBuffer env m w).2.exec env (.readBuf l n)).1.2.bytes

/-- A buffer with a NUL among its bytes is copied up to there. -/
theorem readKsymBody_relates {e e' : Env G} (he : e.Agree e') {access : Except Fault Msg}
    {w w' : World G} (hw : Alike w w') (hterm : ∀ m, access = .ok m → KsymTerminated e m w) :
    Both SameReply (readKsymBody e access w) (readKsymBody e' access w') := by
  apply reading_both
  intro m hm
  have hnul := hterm m hm
  unfold KsymTerminated at hnul
  obtain ⟨hcount, hv⟩ := allocBuffer_relates he m hw
  dsimp only
  rw [← hcount]
  cases hl : location .ksym m with
  | none => exact .ok ⟨hv, rfl⟩
  | some l =>
    cases hn : (allocBuffer e m w).1 with
    | none => exact .ok ⟨hv, rfl⟩
    | some n =>
      obtain ⟨st, bytes, tail, tail', v, v', h, h', hv'⟩ := hv.exec_readBuf he l n
      have hmem : 0 ∈ bytes := by
        have hbytes := hnul l n hl hn
        rw [h] at hbytes
        exact hbytes
      dsimp only
      rw [h, h']
      dsimp only
      rw [if_pos (List.mem_append_left _ hmem), if_pos (List.mem_append_left _ hmem),
        cStr_append hmem, cStr_append hmem]
      exact .ok ⟨hv', rfl⟩

/-- **Exactly those.** Without a NUL among the bytes that were read, the reply to a `READ_KSYM`
    depends on what was in the heap. -/
theorem readKsym_independent_iff (env : Env G) (m : Msg) (w : World G) :
    (∀ leftover leftover', readKsymBody (env.withLeftover leftover) (.ok m) w =
      readKsymBody (env.withLeftover leftover') (.ok m) w) ↔ KsymTerminated env m w := by
  constructor
  · intro h l n hl hn
    obtain ⟨⟨⟨st, buf⟩, v⟩, hread⟩ :
        ∃ p, (allocBuffer env m w).2.exec env (.readBuf l n) = p := ⟨_, rfl⟩
    rw [hread]
    by_contra hnul
    -- two heaps that hold another byte right behind what is read
    have hreply : ∀ b : UInt8, b ≠ 0 →
        readKsymBody (env.withLeftover fun _ => List.replicate buf.bytes.length 0 ++ [b, 0])
          (.ok m) w = .ok (v, .ok (resultWith (.bytes (buf.bytes ++ [b])) st)) := by
      intro b hb
      have htail :
          (List.replicate buf.bytes.length 0 ++ [b, 0]).drop buf.bytes.length = [b, 0] := by
        rw [List.drop_left' (List.length_replicate ..)]
      have hcut : cStr [b, 0] = [b] := by
        simp [cStr, hb]
      rw [readKsymBody_withLeftover hl hn hread, htail, if_pos (by simp),
        cStr_append_of_not_mem hnul, hcut]
    have hsame := h (fun _ => List.replicate buf.bytes.length 0 ++ [1, 0])
      (fun _ => List.replicate buf.bytes.length 0 ++ [2, 0])
    rw [hreply 1 (by decide), hreply 2 (by decide)] at hsame
    have hresult :=
      congrArg (fun x => x.map fun p => p.2.entry.bind fun m => m.bytes? .result) hsame
    simp [Except.map, Reply.ok, resultWith, Msg.bytes?] at hresult
  · intro hterm leftover leftover'
    have halloc : ∀ L, allocBuffer (env.withLeftover L) m w = allocBuffer env m w := fun _ => rfl
    cases hl : location .ksym m with
    | none =>
      unfold readKsymBody reading
      rw [ok_bind, ok_bind]
      dsimp only
      rw [halloc, halloc, hl]
    | some l =>
      cases hn : (allocBuffer env m w).1 with
      | none =>
        unfold readKsymBody reading
        rw [ok_bind, ok_bind]
        dsimp only
        rw [halloc, halloc, hl, hn]
      | some n =>
        obtain ⟨⟨⟨st, buf⟩, v⟩, hread⟩ :
            ∃ p, (allocBuffer env m w).2.exec env (.readBuf l n) = p := ⟨_, rfl⟩
        have hnul : 0 ∈ buf.bytes := by
          have hmem := hterm l n hl hn
          rw [hread] at hmem
          exact hmem
        rw [readKsymBody_withLeftover hl hn hread, readKsymBody_withLeftover hl hn hread,
          if_pos (List.mem_append_left _ hnul), if_pos (List.mem_append_left _ hnul),
          cStr_append hnul, cStr_append hnul]

/-! ### The registry -/

/-- The identity decides only whether there is an owner. -/
theorem ownerOf_relates {ident ident' : Bytes} (h : ident.isEmpty = ident'.isEmpty) :
    Both (fun _ _ => True) (ownerOf ident) (ownerOf ident') := by
  unfold ownerOf
  rw [h]
  split
  · exact .error _
  · exact .ok trivial

/-- Setting a trap answers the same, whatever its pointer is. -/
theorem Alike.exec_addTrap {e e' : Env G} (he : e.Agree e') {w w' : World G} (hw : Alike w w')
    (t t' : Trap) (hkind : t.kind = t'.kind) :
    ∃ (added : Bool) (v v' : World G), w.exec e (.addTrap t) = (added, v) ∧
      w'.exec e' (.addTrap t') = (added, v') ∧ Alike v v' := by
  refine ⟨(e'.exec (.addTrap t') w'.guest).1, (w.exec e (.addTrap t)).2,
    (w'.exec e' (.addTrap t')).2, ?_, rfl, ?_⟩
  · unfold World.exec
    rw [hw.guest, he.addTrap t t' _ hkind]
  · refine ⟨?_, hw.events, hw.running, hw.eventId, hw.ident⟩
    show (e.exec (.addTrap t) w.guest).2 = (e'.exec (.addTrap t') w'.guest).2
    rw [hw.guest, he.addTrap t t' _ hkind]

theorem Alike.exec_removeTrap {e e' : Env G} (he : e.Agree e') {w w' : World G} (hw : Alike w w')
    {t t' : Option Trap} (hkind : t.map Trap.kind = t'.map Trap.kind) :
    Alike (w.exec e (.removeTrap t)).2 (w'.exec e' (.removeTrap t')).2 := by
  refine ⟨?_, hw.events, hw.running, hw.eventId, hw.ident⟩
  show (e.exec (.removeTrap t) w.guest).2 = (e'.exec (.removeTrap t') w'.guest).2
  rw [hw.guest, he.removeTrap t t' _ hkind]

theorem addTrapFor_relates {e e' : Env G} (he : e.Agree e') (m : Msg) (kind : TrapKind)
    (obj obj' : ℕ) {w w' : World G} (hw : Alike w w') :
    Both SameReply (addTrapFor e m kind obj w) (addTrapFor e' m kind obj' w') := by
  unfold addTrapFor
  refine (ownerOf_relates hw.ident).bind ?_
  intro owner owner' _
  dsimp only [addEvent]
  rw [← hw.firstFree]
  -- the new entries differ in their owner and their address only
  let entry (owner : Bytes) (obj : ℕ) : EventItem :=
    ⟨firstFree w.events, m.enumOr1 .syncState, true, some ⟨kind, obj⟩, some owner, obj⟩
  have hshape : (entry owner obj).shape = (entry owner' obj').shape := rfl
  have hadd := hw.insert (firstFree w.events) hshape
  obtain ⟨_, v₁, v₁', h₁, h₁', hv₁⟩ := hadd.exec he .pause rfl
  obtain ⟨added, v₂, v₂', h₂, h₂', hv₂⟩ := hv₁.exec_addTrap he ⟨kind, obj⟩ ⟨kind, obj'⟩ rfl
  rw [h₁, h₁']
  dsimp only
  rw [h₂, h₂']
  cases added with
  | true =>
    obtain ⟨_, v₃, v₃', h₃, h₃', hv₃⟩ := hv₂.exec he .resume rfl
    dsimp only
    rw [if_pos rfl, if_pos rfl, h₃, h₃']
    exact .ok ⟨hv₃, rfl⟩
  | false =>
    have herase :=
      hv₂.erase (Eq.refl (firstFree w.events)) (v₂.freed ++ [obj]) (v₂'.freed ++ [obj'])
    obtain ⟨_, v₃, v₃', h₃, h₃', hv₃⟩ := herase.exec he .resume rfl
    dsimp only
    rw [if_neg Bool.false_ne_true, if_neg Bool.false_ne_true, h₃, h₃']
    exact .ok ⟨hv₃, rfl⟩

theorem eventRegisterBody_relates : (eventRegisterBody : Body G).Relates := by
  intro e e' he access w w' hw
  obtain ⟨trapAllocated, v₁, v₁', h₁, h₁', hv₁⟩ := hw.exec he (.malloc .trap) rfl
  obtain ⟨eiAllocated, v₂, v₂', h₂, h₂', hv₂⟩ := hv₁.exec he (.malloc .eventItem) rfl
  unfold eventRegisterBody
  rw [← hw.length]
  split
  · exact .ok ⟨hw, rfl⟩
  rw [h₁, h₁']
  dsimp only
  rw [h₂, h₂']
  dsimp only
  split
  · exact .ok ⟨hv₂, rfl⟩
  cases access with
  | error err => exact .error err
  | ok m =>
    rw [ok_bind, ok_bind]
    split
    · split
      · exact addTrapFor_relates he m _ _ _ (hv₂.allocated _ _)
      · exact .ok ⟨hv₂.allocated _ _, rfl⟩
    · split
      · exact addTrapFor_relates he m _ _ _ (hv₂.allocated _ _)
      · exact .ok ⟨⟨hv₂.guest, hv₂.events, hv₂.running, hv₂.eventId, hv₂.ident⟩, rfl⟩

theorem eventClearBody_relates : (eventClearBody : Body G).Relates := by
  apply reading_relates
  intro e e' he m w w' hw
  obtain ⟨_, v₁, v₁', h₁, h₁', hv₁⟩ := hw.exec he .pause rfl
  dsimp only
  rw [h₁, h₁']
  dsimp only
  have hlookup := hv₁.events ((m.u64? .identifier).getD 0).toNat
  cases hei : v₁.events.lookup ((m.u64? .identifier).getD 0).toNat with
  | none =>
    rw [hei] at hlookup
    rw [Option.map_eq_none_iff.mp hlookup.symm]
    obtain ⟨_, v₂, v₂', h₂, h₂', hv₂⟩ := hv₁.exec he .resume rfl
    dsimp only
    rw [h₂, h₂']
    exact .ok ⟨hv₂, rfl⟩
  | some ei =>
    rw [hei] at hlookup
    obtain ⟨ei', hei', hshape⟩ := Option.map_eq_some_iff.mp hlookup.symm
    obtain ⟨hid, hkind⟩ := Prod.mk.inj hshape
    rw [hei']
    have hv₂ := hv₁.exec_removeTrap he hkind.symm
    dsimp only
    have herase := hv₂.erase hid.symm
      ((v₁.exec e (.removeTrap ei.event)).2.freed ++ [ei.obj])
      ((v₁'.exec e' (.removeTrap ei'.event)).2.freed ++ [ei'.obj])
    obtain ⟨_, v₃, v₃', h₃, h₃', hv₃⟩ := herase.exec he .resume rfl
    rw [h₃, h₃']
    exact .ok ⟨hv₃, rfl⟩

theorem startSyscallBody_relates : (startSyscallBody : Body G).Relates := by
  intro e e' he access w w' hw
  have hrunning := hw.running
  unfold startSyscallBody
  cases howner : w.syscallPluginOwner with
  | some owner =>
    rw [howner] at hrunning
    obtain ⟨owner', howner'⟩ := Option.isSome_iff_exists.mp hrunning.symm
    rw [howner']
    exact .ok ⟨hw, rfl⟩
  | none =>
    rw [howner] at hrunning
    have howner' : w'.syscallPluginOwner = none := by simpa using hrunning.symm
    rw [howner']
    obtain ⟨allocated, v₁, v₁', h₁, h₁', hv₁⟩ := hw.exec he (.malloc .eventItem) rfl
    dsimp only
    rw [h₁, h₁']
    dsimp only
    split
    · exact .ok ⟨hv₁, rfl⟩
    cases access with
    | error err => exact .error err
    | ok m =>
      rw [ok_bind, ok_bind]
      dsimp only [addEvent]
      rw [← hv₁.firstFree]
      let entry (obj : ℕ) : EventItem :=
        ⟨firstFree v₁.events, m.enumOr1 .syncState, true, none, none, obj⟩
      have hshape : (entry v₁.nextAlloc).shape = (entry v₁'.nextAlloc).shape := rfl
      have hinsert := hv₁.insert (firstFree v₁.events) hshape
      have hadd : Alike
          { v₁ with nextAlloc := v₁.nextAlloc + 1, syscallPluginEi := some v₁.nextAlloc,
                    events := v₁.events.insert (firstFree v₁.events) (entry v₁.nextAlloc),
                    syscallPluginEventId := firstFree v₁.events }
          { v₁' with nextAlloc := v₁'.nextAlloc + 1, syscallPluginEi := some v₁'.nextAlloc,
                     events := v₁'.events.insert (firstFree v₁.events) (entry v₁'.nextAlloc),
                     syscallPluginEventId := firstFree v₁.events } :=
        ⟨hinsert.guest, hinsert.events, hinsert.running, rfl, hinsert.ident⟩
      obtain ⟨_, v₂, v₂', h₂, h₂', hv₂⟩ := hadd.exec he .pause rfl
      obtain ⟨started, v₃, v₃', h₃, h₃', hv₃⟩ := hv₂.exec he .newSyscalls rfl
      show Both SameReply
        (if ((World.exec _ e .pause).2.exec e .newSyscalls).1 = true then _ else _)
        (if ((World.exec _ e' .pause).2.exec e' .newSyscalls).1 = true then _ else _)
      rw [h₂, h₂']
      dsimp only
      rw [h₃, h₃']
      cases started with
      | false => exact .error _
      | true =>
        rw [if_pos rfl, if_pos rfl]
        refine (ownerOf_relates hv₃.ident).bind ?_
        intro owner owner' _
        dsimp only
        have hstarted : Alike
            { v₃ with syscallPluginSyncState := m.enumOr1 .syncState
                      syscallPluginOwner := some owner }
            { v₃' with syscallPluginSyncState := m.enumOr1 .syncState
                       syscallPluginOwner := some owner' } :=
          ⟨hv₃.guest, hv₃.events, rfl, hv₃.eventId, hv₃.ident⟩
        obtain ⟨_, v₄, v₄', h₄, h₄', hv₄⟩ := hstarted.exec he .resume rfl
        rw [h₄, h₄']
        exact .ok ⟨hv₄, rfl⟩

theorem stopSyscallBody_relates : (stopSyscallBody : Body G).Relates := by
  intro e e' he access w w' hw
  have hrunning := hw.running
  unfold stopSyscallBody
  cases howner : w.syscallPluginOwner with
  | none =>
    rw [howner] at hrunning
    have howner' : w'.syscallPluginOwner = none := by simpa using hrunning.symm
    rw [howner']
    exact .ok ⟨hw, rfl⟩
  | some owner =>
    rw [howner] at hrunning
    obtain ⟨owner', howner'⟩ := Option.isSome_iff_exists.mp hrunning.symm
    rw [howner']
    dsimp only
    rw [← hw.eventId]
    by_cases hmem : w.syscallPluginEventId ∈ w.events
    · have hmem' : w.syscallPluginEventId ∈ w'.events := (hw.mem_events _).mp hmem
      rw [if_neg (not_not.mpr hmem), if_neg (not_not.mpr hmem')]
      obtain ⟨_, v₁, v₁', h₁, h₁', hv₁⟩ := hw.exec he .pause rfl
      rw [h₁, h₁']
      dsimp only
      have herase := hv₁.erase hv₁.eventId
        (v₁.freed ++ v₁.syscallPluginEi.toList) (v₁'.freed ++ v₁'.syscallPluginEi.toList)
      obtain ⟨_, v₂, v₂', h₂, h₂', hv₂⟩ := herase.exec he .deleteSyscalls rfl
      rw [h₂, h₂']
      dsimp only
      have hstopped : Alike { v₂ with syscallPluginOwner := none }
          { v₂' with syscallPluginOwner := none } :=
        ⟨hv₂.guest, hv₂.events, rfl, hv₂.eventId, hv₂.ident⟩
      obtain ⟨_, v₃, v₃', h₃, h₃', hv₃⟩ := hstopped.exec he .resume rfl
      rw [h₃, h₃']
      exact .ok ⟨hv₃, rfl⟩
    · have hmem' : w.syscallPluginEventId ∉ w'.events := fun h => hmem ((hw.mem_events _).mpr h)
      rw [if_pos hmem, if_pos hmem']
      exact .error _

/-! ### Handlers -/

/-- Every handler but that of `READ_KSYM` replies the same. -/
theorem handlerOf_relates {c : Call} (hc : c ≠ .readBuf .ksym) :
    (handlerOf c : Handler G).body.Relates := by
  cases c
  case readNum w s => cases w <;> cases s <;> exact readNumBody_relates _ _
  case writeNum w s => cases w <;> cases s <;> exact writeNumBody_relates _ _
  case readAddr s => cases s <;> exact readAddrBody_relates _
  case writeBuf s => cases s <;> exact writeBufBody_relates _
  case readBuf s =>
    cases s
    · exact readBufBody_relates _
    · exact readBufBody_relates _
    · exact absurd rfl hc
  case readStr s =>
    cases s
    · exact readStrPaBody_relates
    · exact readStrBody_relates _
    · exact readStrBody_relates _
  case translateKv2p =>
    exact translateBody_relates (fun m => m.u64? .vaddr) (fun _ _ _ => rfl)
      fun e e' he v w w' hw => hw.exec he (.translateKv2p v) rfl
  case translateKsym2v =>
    exact translateBody_relates (fun m => m.str? .symbol) (fun _ _ _ => rfl)
      fun e e' he s w w' hw => hw.exec he (.translateKsym2v (cStr s)) rfl
  case getOffset =>
    exact translateBody_relates (fun m => m.str? .symbol) (fun _ _ _ => rfl)
      fun e e' he s w w' hw => hw.exec he (.getOffset (cStr s)) rfl
  case translateUv2p =>
    refine translateBody_relates
      (fun m => (m.i32? .pid).bind fun pid => (m.u64? .vaddr).map fun v => (pid, v))
      (fun e m w => ?_) fun e e' he a w w' hw => hw.exec he (.translateUv2p a.2 a.1) rfl
    cases m.i32? .pid <;> cases m.u64? .vaddr <;> rfl
  case lookupSymbol =>
    dsimp only [handlerOf, processLookupSymbol]
    exact lookupBody_relates fun e e' he m w w' hw => hw.exec he (.getConstantRva _) rfl
  case lookupStructure =>
    dsimp only [handlerOf, processLookupStructure]
    exact lookupBody_relates fun e e' he m w w' hw => hw.exec he (.getStructMemberRva _ _) rfl
  case getName => exact stringBody_relates fun e e' he w w' hw => hw.exec he .getName rfl
  case getWinverStr => exact stringBody_relates fun e e' he w w' hw => hw.exec he .getWinverStr rfl
  case getVmid =>
    exact numberBody_relates (fun vmid : UInt64 => .u32 vmid.toUInt32)
      fun e e' he w w' hw => hw.exec he .getVmid rfl
  case getWinver =>
    exact numberBody_relates (fun winver : Int32 => .u32 winver.toUInt32)
      fun e e' he w w' hw => hw.exec he .getWinver rfl
  case getMemsize =>
    exact numberBody_relates .u64 fun e e' he w w' hw => hw.exec he .getMemsize rfl
  case getAccessMode | getVcpureg | getOstype | getPageMode => exact notImplementedBody_relates
  case eventsStart | eventsStop => exact eventsBody_relates _
  case resumeVm | pauseVm => exact effectBody_relates rfl
  case processList => exact processListBody_relates
  case eventRegister => exact eventRegisterBody_relates
  case eventClear => exact eventClearBody_relates
  case startSyscall => exact startSyscallBody_relates
  case stopSyscall => exact stopSyscallBody_relates
  case status => exact fun _ _ _ _ _ _ hw => .ok ⟨hw, rfl⟩

/-- Two results of a call: the same link state and the same message, in worlds that agree. -/
def SameCall {α : Type} (p q : LinkState × World G × α) : Prop :=
  p.1 = q.1 ∧ Alike p.2.1 q.2.1 ∧ p.2.2 = q.2.2

/-- If the call is a `READ_KSYM`, its read has a NUL. -/
def EntryTerminated (env : Env G) (msgIn : VMIMessage) (t index : ℕ) (w : World G) : Prop :=
  t = (Call.readBuf .ksym).num →
    ∀ m, msgIn.request (.readBuf .ksym) index = .ok m → KsymTerminated env m w

/-- **The condition.** Every `READ_KSYM` of the message that is served reads a NUL, if it reads
    anything. -/
def ReadsTerminated (env : Env G) (msgIn : VMIMessage) (w₀ : World G) : Prop :=
  ∀ i l w out, Reaches env msgIn w₀ i l w out → out.error = none →
    ∀ t, msgIn.type[i]? = some t → EntryTerminated env msgIn t (countBefore t msgIn.type i) w

section Runs

variable {e e' : Env G} {w w' : World G}

/-- A handler whose body replies the same does so with a link, too: links are resolved from the
    messages and the link state alone. -/
theorem Handler.run_relates {h : Handler G} (hb : h.body.Relates) (he : e.Agree e') (c : Call)
    (index : ℕ) (msgIn msgOut : VMIMessage) (l : LinkState) (hw : Alike w w') :
    Both SameCall (h.run c e index msgIn msgOut l w) (h.run c e' index msgIn msgOut l w') := by
  have hbody : ∀ l access, Both SameCall
      (h.body e access w >>= fun p => .ok (l, p.1, p.2))
      (h.body e' access w' >>= fun p => .ok (l, p.1, p.2)) :=
    fun l access => (hb e e' he access w w' hw).bind fun p q hpq => .ok ⟨rfl, hpq.1, hpq.2⟩
  unfold Handler.run
  split
  · cases msgIn.request c index with
    | error err => exact .error err
    | ok m =>
      rw [ok_bind, ok_bind]
      cases m.link? with
      | none => exact hbody l (.ok m)
      | some link =>
        dsimp only
        cases processLink c.requestFields m link index msgIn msgOut l with
        | error err => exact .error err
        | ok o =>
          rw [ok_bind, ok_bind]
          obtain ⟨l₁, o⟩ := o
          cases o with
          | rejected n => exact .ok ⟨rfl, hw, rfl⟩
          | linked m' v => exact hbody l₁ (.ok m')
  · exact hbody l (msgIn.request c index)

/-- **One call** gives the same message on both sides. -/
theorem processSingle_relates (he : e.Agree e') (t index : ℕ) (msgIn msgOut : VMIMessage)
    (l : LinkState) (hw : Alike w w') (hterm : EntryTerminated e msgIn t index w) :
    Both SameCall (processSingle e t index msgIn msgOut l w)
      (processSingle e' t index msgIn msgOut l w') := by
  unfold processSingle
  cases hcall : Call.ofNum? t with
  | none => exact .ok ⟨rfl, hw, rfl⟩
  | some c =>
    obtain rfl := Call.num_of_ofNum? hcall
    have hrun : Both SameCall ((handlerOf c).run c e index msgIn msgOut l w)
        ((handlerOf c).run c e' index msgIn msgOut l w') := by
      by_cases hksym : c = .readBuf .ksym
      · subst hksym
        -- `READ_KSYM` resolves no link
        refine (readKsymBody_relates he hw (hterm rfl)).bind ?_
        intro p q hpq
        exact .ok ⟨rfl, hpq.1, hpq.2⟩
      · exact Handler.run_relates (handlerOf_relates hksym) he c index msgIn msgOut l hw
    refine hrun.bind ?_
    rintro ⟨l₁, w₁, r⟩ ⟨l₂, w₂, r'⟩ ⟨hl, hw', hr⟩
    cases hl
    cases hr
    exact .ok ⟨rfl, hw', rfl⟩

/-- **The rest of a message** gives the same reply, from a position that one side has reached. -/
theorem processTypes_relates (he : e.Agree e') {msgIn : VMIMessage} {w₀ : World G}
    (hterm : ReadsTerminated e msgIn w₀)
    {i : ℕ} {l : LinkState} {out : VMIMessage} (h : Reaches e msgIn w₀ i l w out)
    (hw : Alike w w') :
    Both SameCall
      (processTypes e msgIn (msgIn.type.drop i) (countsAfter (msgIn.type.take i)) l w out)
      (processTypes e' msgIn (msgIn.type.drop i) (countsAfter (msgIn.type.take i)) l w' out) := by
  generalize hn : msgIn.type.length - i = n
  induction n generalizing i l w w' out with
  | zero =>
    have hle := h.le_length
    rw [List.drop_eq_nil_of_le (by omega)]
    exact .ok ⟨rfl, hw, rfl⟩
  | succ n ih =>
    have hlt : i < msgIn.type.length := by omega
    have ht : msgIn.type[i]? = some msgIn.type[i] := List.getElem?_eq_getElem hlt
    cases herr : out.error with
    | some b =>
      rw [List.drop_eq_getElem_cons hlt, processTypes, processTypes, herr]
      exact .ok ⟨rfl, hw, rfl⟩
    | none =>
      rw [processTypes_step ht _ _ herr, processTypes_step ht _ _ herr]
      have hone := processSingle_relates he msgIn.type[i]
        (countBefore msgIn.type[i] msgIn.type i) msgIn out l hw (hterm i l w out h herr _ ht)
      cases hs : processSingle e msgIn.type[i] (countBefore msgIn.type[i] msgIn.type i) msgIn out l
          w with
      | error err =>
        rw [hone.of_error hs]
        exact .error err
      | ok p =>
        obtain ⟨l₁, w₁, out₁⟩ := p
        obtain ⟨⟨l₂, w₂, out₂⟩, hs', hl, hw', hout⟩ := hone.of_ok hs
        cases hl
        cases hout
        rw [hs']
        exact ih (.next h herr ht hs) hw' (by omega)

/-- Two runs of `process_protobuf` on one message. -/
theorem processProtobuf_relates (he : e.Agree e') {msgIn : VMIMessage} (hw : Alike w w')
    (hterm : ReadsTerminated e msgIn w) :
    Both (fun p q => Alike p.1 q.1 ∧ p.2 = q.2) (processProtobuf e msgIn w)
      (processProtobuf e' msgIn w') := by
  unfold processProtobuf
  split
  · exact .ok ⟨hw, rfl⟩
  · have hrun := processTypes_relates he hterm .start hw
    rw [← processTypes_of_reaches .start, List.drop_zero, List.take_zero] at hrun
    have hcounts : countsAfter [] = fun _ => none := by
      funext t
      simp [countsAfter]
    rw [hcounts] at hrun
    exact hrun.bind fun p q hpq => .ok ⟨hpq.2.1, hpq.2.2⟩

end Runs

/-! ### Replies -/

/-- **The replies are the same.** Two histories may leave any members and any heap behind: if
    they agree on the guest and on the registry, and every `READ_KSYM` that is served reads a
    NUL, the same bytes get the same reply, or end the partition in the same way. -/
theorem reply_independent {P : Protobuf} {env : Env G} (henv : env.IgnoresData)
    {leftover leftover' : ℕ → Bytes} {raw : Bytes} {M M' : Members} {w w' : World G}
    (hw : Alike w w')
    (hterm : ReadsTerminated (env.withLeftover leftover) (decoded P raw) w) :
    Both (fun r r' => r.2.2 = r'.2.2) (processBytes P env leftover raw M w)
      (processBytes P env leftover' raw M' w') := by
  have hrun := processProtobuf_relates (henv.agree leftover leftover') hw hterm
  have hleft := processBytes_eq P env leftover raw M w
  have hright := processBytes_eq P env leftover' raw M' w'
  cases hx : processBytes P env leftover raw M w with
  | error err =>
    rw [hx] at hleft
    have hfault : processProtobuf (env.withLeftover leftover) (decoded P raw) w = .error err := by
      cases hp : processProtobuf (env.withLeftover leftover) (decoded P raw) w with
      | error e₁ =>
        rw [hp] at hleft
        cases hleft
        rfl
      | ok p =>
        rw [hp] at hleft
        cases hleft
    rw [hrun.of_error hfault] at hright
    cases hy : processBytes P env leftover' raw M' w' with
    | error e₂ =>
      rw [hy] at hright
      cases hright
      exact .error err
    | ok q =>
      rw [hy] at hright
      cases hright
  | ok p =>
    obtain ⟨M₁, w₁, reply⟩ := p
    obtain ⟨out, hout, hreply⟩ := processProtobuf_of_processBytes hx
    obtain ⟨⟨w₂, out'⟩, hout', -, hsame⟩ := hrun.of_ok hout
    cases hsame
    rw [hout'] at hright
    obtain ⟨⟨M₂, w₂', reply'⟩, hy, hpair⟩ := map_eq_ok.mp hright
    cases hpair
    rw [hy]
    exact .ok hreply.symm

/-- A request to read two bytes at the symbol `x`. -/
def ksymRequest : VMIMessage :=
  VMIMessage.empty.addCall (.readBuf .ksym)
    ((Msg.empty.set .symbol (.str [120])).set .count (.i32 2))

/-- Its bytes. -/
def ksymRaw : Bytes := [146, 4, 5, 10, 1, 120, 16, 2, 240, 7, 66]

/-- The protobuf runtime on this request and on its replies: the field 67, a `READ_KSYM_RET` of
    a result and a status, and the type 67. -/
def ksymRuntime : Protobuf where
  parse raw := if raw = ksymRaw then (true, ksymRequest) else (raw.isEmpty, VMIMessage.empty)
  serialize out :=
    match out.sub 67 with
    | [r] =>
      let result := (r.bytes? .result).getD []
      let body := [10, .ofNat result.length] ++ result
        ++ [16, ((r.i32? .status).getD 0).toUInt32.toUInt8]
      [154, 4, .ofNat body.length] ++ body ++ [240, 7, 67]
    | _ => []

theorem echoEnv_ignoresData : echoEnv.IgnoresData where
  addTrap _ _ _ _ := rfl
  removeTrap _ _ _ _ := rfl

/-- A guest whose memory is zero gives the same reply whatever was in the heap. -/
theorem reply_independent_zero :
    Both (fun r r' => r.2.2 = r'.2.2)
      (processBytes ksymRuntime echoEnv (fun _ => [65, 0]) ksymRaw {} (World.initial ()))
      (processBytes ksymRuntime echoEnv (fun _ => [66, 0]) ksymRaw
        { link := { nthType := 7, msgno := 3 } } (World.initial ())) := by
  refine reply_independent echoEnv_ignoresData ⟨rfl, fun _ => rfl, rfl, rfl, rfl⟩ ?_
  intro i l w out hreach _ t ht
  cases hreach with
  | start =>
    intro _ m hm loc n hloc hn
    cases hm
    cases hn
    simp only [World.exec, Env.withLeftover, echoEnv, List.mem_replicate]
    decide
  | @next i t' =>
    -- the message has one call
    have hlen : (decoded ksymRuntime ksymRaw).type.length = 1 := rfl
    obtain ⟨hlt, -⟩ := List.getElem?_eq_some_iff.mp ht
    omega

/-- A guest in which no symbol is known: a bulk read fails and reads nothing. -/
def lostEnv : Env Unit where
  exec
    | .readBuf _ _, g => ((.failure, ⟨[], []⟩), g)
    | op, g => echoEnv.exec op g
  fuel := 1

/-- **An earlier request shows.** The reply to a failed `READ_KSYM` holds what was in the heap:
    `A` after one history, `B` after another. -/
theorem reply_independent_fails :
    lostEnv.IgnoresData ∧
    ¬∀ (leftover leftover' : ℕ → Bytes) (M M' : Members),
      Both (fun r r' => r.2.2 = r'.2.2)
        (processBytes ksymRuntime lostEnv leftover ksymRaw M (World.initial ()))
        (processBytes ksymRuntime lostEnv leftover' ksymRaw M' (World.initial ())) := by
  refine ⟨⟨fun _ _ _ _ => rfl, fun _ _ _ _ => rfl⟩, fun hall => ?_⟩
  have hleft : ∃ M w, processBytes ksymRuntime lostEnv (fun _ => [65, 0]) ksymRaw {}
      (World.initial ()) = .ok (M, w, [154, 4, 5, 10, 1, 65, 16, 1, 240, 7, 67]) := ⟨_, _, rfl⟩
  have hright : ∃ M w, processBytes ksymRuntime lostEnv (fun _ => [66, 0]) ksymRaw {}
      (World.initial ()) = .ok (M, w, [154, 4, 5, 10, 1, 66, 16, 1, 240, 7, 67]) := ⟨_, _, rfl⟩
  obtain ⟨M, w, hleft⟩ := hleft
  obtain ⟨M', w', hright⟩ := hright
  obtain ⟨b, hb, hsame⟩ := (hall (fun _ => [65, 0]) (fun _ => [66, 0]) {} {}).of_ok hleft
  rw [hright] at hb
  cases hb
  cases hsame

end Furnace.Vmi
