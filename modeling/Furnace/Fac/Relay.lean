import Furnace.Fac.Message
import Furnace.Lib.Transition

namespace Furnace.Fac

open Furnace.Lib Furnace.Lib.PyText

/-!
# Messages from the backend

A message from the backend comes to the facilities partition on one of two sockets, as a
directed message or as a broadcast, and goes on to the app on the socket of the same kind.
The two relays were written separately: `be2fe_process_protobuf` goes through the type list and
sends one message for each `BE_MSG`; the branch for broadcasts sends the first `BE_MSG`, which
must exist, and no other.  In the app `FE.loop` hands the first `BE_MSG` of every message to
the backend callback.

* `relay`, `frontendReceives` — the two sides.
* `Relayed` — every `BE_MSG` of a message is forwarded, and invokes the callback, once and in
  order; `relayed_iff` tells for which messages.
* `relaySystem` — both loops, with messages in flight.
* `backend_relayed` — nothing is lost of a message exactly when it fits its socket, and nothing
  is lost in a run of such messages.
-/

/-! ### The facilities partition -/

/-- The two ways a message from the backend takes. -/
inductive Channel
  | directed | broadcast
  deriving DecidableEq, Repr

/-- The loop of `be2fe_process_protobuf` over the types that are left: the messages that it
    sends to the app, and the exception that ends it, and with it the runtime. -/
def relayDirected : List FacType → FacMessage → List FacMessage × Option PyError
  | [], _ => ([], none)
  | t :: ts, M =>
    match M.pop t with
    | .error e => ([], some e)
    | .ok (.beMsg m, M) =>
      match m.value.assign with
      | .error e => ([], some e)
      | .ok value =>
        -- what has been sent stays sent, also when a later turn raises
        let rest := relayDirected ts M
        (.ofBeMsg ⟨m.status, .str value⟩ :: rest.1, rest.2)
    -- a sub-message of another type is taken out, and dropped
    | .ok (_, M) => relayDirected ts M

/-- The branch of the loop for a broadcast: the type list is not looked at. -/
def relayBroadcast (M : FacMessage) : List FacMessage × Option PyError :=
  match M.beMsg with
  | [] => ([], some .indexError)
  | m :: _ =>
    match m.value.assign with
    | .error e => ([], some e)
    | .ok value => ([.ofBeMsg ⟨m.status, .str value⟩], none)

/-- The facilities partition relays a message. -/
def relay : Channel → FacMessage → List FacMessage × Option PyError
  | .directed, M => relayDirected M.type M
  | .broadcast, M => relayBroadcast M

/-! ### The app -/

/-- `MessageContext`: the argument of the backend callback, with the type `"notify"` or
    `"broadcast"`. -/
structure MessageContext where
  type : Channel
  message : PyStr
  deriving DecidableEq

/-- The branches of `FE.loop` for the two sockets: what the backend callback is invoked with,
    if there is one. -/
def frontendReceives (ch : Channel) (beInfo : Bool) (fmsg : FacMessage) :
    Except PyError (Option MessageContext) :=
  match fmsg.beMsg with
  | [] => .error .indexError
  | m :: _ =>
    -- without a callback there is a warning
    .ok (if beInfo then some ⟨ch, m.value⟩ else none)

/-- `FE.loop` with nothing but these messages, one in each iteration: the invocations, and the
    exception that ends it. -/
def frontendLoop (ch : Channel) (beInfo : Bool) :
    List FacMessage → List MessageContext × Option PyError
  | [] => ([], none)
  | fmsg :: rest =>
    match frontendReceives ch beInfo fmsg with
    | .error e => ([], some e)
    | .ok ctx =>
      let rest := frontendLoop ch beInfo rest
      (ctx.toList ++ rest.1, rest.2)

/-! ### One message -/

/-- A `BE_MSG` as the callback gets it. -/
def BeMsg.context (ch : Channel) (m : BeMsg) : MessageContext := ⟨ch, m.value⟩

/-- **A message is relayed without loss**: each of its `BE_MSG`s goes to the app as it is, in a
    message of its own and in order, the runtime goes on, and the callback is invoked once for
    each, in order. -/
structure Relayed (ch : Channel) (beInfo : Bool) (M : FacMessage) : Prop where
  forwarded : (relay ch M).1 = M.beMsg.map .ofBeMsg
  goesOn : (relay ch M).2 = none
  invoked : frontendLoop ch beInfo (relay ch M).1 = (M.beMsg.map (BeMsg.context ch), none)

/-- How many sub-messages a message has for a type. -/
def FacMessage.size (M : FacMessage) : FacType → ℕ
  | .get => M.get.length
  | .set => M.set.length
  | .beMsg => M.beMsg.length
  | .getRet => M.getRet.length
  | .setRet => M.setRet.length
  | .beMsgRet => M.beMsgRet.length

/-- The messages that a relay is good for: a directed message has a type entry for each of its
    `BE_MSG`s, and a sub-message for each of its type entries; a broadcast has one `BE_MSG`. -/
def Channel.Takes : Channel → FacMessage → Prop
  | .directed, M => (∀ t, M.type.count t ≤ M.size t) ∧ M.type.count .beMsg = M.beMsg.length
  | .broadcast, M => M.beMsg.length = 1

/-- The value of every `BE_MSG` is text. -/
def AllText (ms : List BeMsg) : Prop := ∀ m ∈ ms, ∃ s, m.value = .str s

/-- A type entry with a sub-message takes the first one out. -/
theorem pop_of_size {M : FacMessage} {t : FacType} (h : 0 < M.size t) :
    ∃ r M', M.pop t = .ok (r, M') ∧ (∀ t', M.size t' = M'.size t' + if t' = t then 1 else 0) ∧
      ((t = .beMsg ∧ ∃ m, r = .beMsg m ∧ M.beMsg = m :: M'.beMsg) ∨
        (t ≠ .beMsg ∧ (∀ m, r ≠ .beMsg m) ∧ M'.beMsg = M.beMsg)) := by
  cases t
  case beMsg =>
    obtain ⟨m, ms, hms⟩ := List.exists_cons_of_length_pos h
    refine ⟨.beMsg m, { M with beMsg := ms }, ?_, ?_, .inl ⟨rfl, m, rfl, hms⟩⟩
    · simp [FacMessage.pop, popFrom, hms, Except.map]
    · intro t'
      cases t' <;> simp [FacMessage.size, hms]
  all_goals
    -- the entry is of another list, and `be_msg` stays as it is
    obtain ⟨m, ms, hms⟩ := List.exists_cons_of_length_pos h
    generalize hpop : M.pop _ = p
    unfold FacMessage.pop popFrom at hpop
    rw [hms] at hpop
    subst hpop
    refine ⟨_, _, rfl, ?_, .inr ⟨by decide, ?_, rfl⟩⟩
    · intro t'
      cases t' <;> simp [FacMessage.size, hms]
    · intro m' h
      cases h

theorem pop_of_size_zero {M : FacMessage} {t : FacType} (h : M.size t = 0) :
    M.pop t = .error .indexError := by
  cases t <;>
    (have hnil := List.eq_nil_of_length_eq_zero h
     simp [FacMessage.pop, popFrom, hnil, Except.map])

/-- **What a directed message comes to**, when the relay gets through it: the type entries are
    covered, and the `BE_MSG`s that they stand for are sent. -/
theorem relayDirected_spec (ts : List FacType) (M : FacMessage) :
    ((relayDirected ts M).2 = none ↔
      (∀ t, ts.count t ≤ M.size t) ∧ AllText (M.beMsg.take (ts.count .beMsg))) ∧
    ((relayDirected ts M).2 = none →
      (relayDirected ts M).1 = (M.beMsg.take (ts.count .beMsg)).map .ofBeMsg) := by
  induction ts generalizing M with
  | nil =>
    have hnil : relayDirected [] M = ([], none) := by rw [relayDirected]
    rw [hnil]
    simp [AllText]
  | cons t ts ih =>
    by_cases hsize : M.size t = 0
    -- the entry has no sub-message
    · have hstop : relayDirected (t :: ts) M = ([], some .indexError) := by
        rw [relayDirected, pop_of_size_zero hsize]
      rw [hstop]
      refine ⟨⟨fun h => (by cases h), fun h => ?_⟩, fun h => (by cases h)⟩
      have hcount := h.1 t
      rw [List.count_cons_self] at hcount
      omega
    obtain ⟨r, M', hpop, hsizes, hr⟩ := pop_of_size (Nat.pos_of_ne_zero hsize)
    -- the entries that are left are covered by what is left
    have hcovered : (∀ t', (t :: ts).count t' ≤ M.size t') ↔ ∀ t', ts.count t' ≤ M'.size t' := by
      refine forall_congr' fun t' => ?_
      rw [hsizes t', List.count_cons]
      by_cases heq : t' = t
      · simp [heq]
      · have heq' : ¬t = t' := fun h => heq h.symm
        simp [heq, heq']
    obtain ⟨hnone, hsent⟩ := ih M'
    rcases hr with ⟨rfl, m, rfl, hbe⟩ | ⟨hne, hother, hbe⟩
    -- a `BE_MSG` is sent when its value is text
    · rw [hcovered, List.count_cons_self, hbe, List.take_succ_cons]
      cases hval : m.value with
      | bytes b =>
        have hstop : relayDirected (.beMsg :: ts) M = ([], some .valueError) := by
          rw [relayDirected, hpop]
          simp [hval, PyStr.assign]
        rw [hstop]
        refine ⟨⟨fun h => (by cases h), fun h => ?_⟩, fun h => (by cases h)⟩
        obtain ⟨s, hs⟩ := h.2 m (List.mem_cons_self ..)
        rw [hval] at hs
        cases hs
      | str s =>
        have hgo : relayDirected (.beMsg :: ts) M =
            (.ofBeMsg m :: (relayDirected ts M').1, (relayDirected ts M').2) := by
          rw [relayDirected, hpop]
          simp only [hval, PyStr.assign]
          rw [← hval]
        rw [hgo]
        refine ⟨?_, fun h => ?_⟩
        · show (relayDirected ts M').2 = none ↔ _
          rw [hnone]
          simp [AllText, hval]
        · show _ :: _ = _
          rw [hsent h, List.map_cons]
    -- another sub-message is dropped
    · have hgo : relayDirected (t :: ts) M = relayDirected ts M' := by
        rw [relayDirected, hpop]
        cases r with
        | beMsg m => exact absurd rfl (hother m)
        | _ => rfl
      rw [hgo, hcovered, List.count_cons_of_ne hne, ← hbe]
      exact ⟨hnone, hsent⟩

/-- A directed message gets through whole exactly when its type list covers it. -/
theorem relayDirected_iff (M : FacMessage) :
    ((relayDirected M.type M).1 = M.beMsg.map .ofBeMsg ∧ (relayDirected M.type M).2 = none) ↔
      Channel.directed.Takes M ∧ AllText M.beMsg := by
  obtain ⟨hnone, hsent⟩ := relayDirected_spec M.type M
  constructor
  · rintro ⟨hall, hgo⟩
    obtain ⟨hcovered, htext⟩ := hnone.mp hgo
    rw [hsent hgo] at hall
    have hlen := congrArg List.length hall
    rw [List.length_map, List.length_map, List.length_take] at hlen
    have hle : M.type.count .beMsg ≤ M.beMsg.length := hcovered .beMsg
    have hcount : M.type.count .beMsg = M.beMsg.length := by omega
    rw [hcount, List.take_length] at htext
    exact ⟨⟨hcovered, hcount⟩, htext⟩
  · rintro ⟨⟨hcovered, hcount⟩, htext⟩
    rw [hcount, List.take_length] at hnone hsent
    have hgo := hnone.mpr ⟨hcovered, htext⟩
    exact ⟨hsent hgo, hgo⟩

/-- A broadcast gets through whole exactly when it has one `BE_MSG`. -/
theorem relayBroadcast_iff (M : FacMessage) :
    ((relayBroadcast M).1 = M.beMsg.map .ofBeMsg ∧ (relayBroadcast M).2 = none) ↔
      Channel.broadcast.Takes M ∧ AllText M.beMsg := by
  show _ ↔ M.beMsg.length = 1 ∧ AllText M.beMsg
  unfold relayBroadcast AllText
  cases M.beMsg with
  | nil => simp
  | cons m ms =>
    cases hval : m.value with
    | bytes b => simp [PyStr.assign, hval]
    | str s =>
      have hm : (⟨m.status, .str s⟩ : BeMsg) = m := by rw [← hval]
      cases ms with
      | nil => simp [PyStr.assign, hval, hm]
      | cons m' ms => simp [PyStr.assign, hval]

theorem relay_iff (ch : Channel) (M : FacMessage) :
    ((relay ch M).1 = M.beMsg.map .ofBeMsg ∧ (relay ch M).2 = none) ↔
      ch.Takes M ∧ AllText M.beMsg := by
  cases ch with
  | directed => exact relayDirected_iff M
  | broadcast => exact relayBroadcast_iff M

/-- The loop of the app hands on what the relay sends, if there is a callback. -/
theorem frontendLoop_ofBeMsg (ch : Channel) (beInfo : Bool) (ms : List BeMsg) :
    frontendLoop ch beInfo (ms.map .ofBeMsg) =
      (if beInfo then ms.map (BeMsg.context ch) else [], none) := by
  induction ms with
  | nil => cases beInfo <;> rfl
  | cons m ms ih =>
    rw [List.map_cons, frontendLoop]
    show (_, _) = _
    rw [ih]
    cases beInfo <;> rfl

/-- The messages that are relayed without loss: they are taken, their values are text, and
    there is a callback for them. -/
def Channel.Fits (ch : Channel) (beInfo : Bool) (M : FacMessage) : Prop :=
  ch.Takes M ∧ AllText M.beMsg ∧ (M.beMsg ≠ [] → beInfo = true)

/-- **Which messages are relayed without loss.** -/
theorem relayed_iff (ch : Channel) (beInfo : Bool) (M : FacMessage) :
    Relayed ch beInfo M ↔ ch.Fits beInfo M := by
  constructor
  · rintro ⟨hforwarded, hgo, hinvoked⟩
    obtain ⟨htakes, htext⟩ := (relay_iff ch M).mp ⟨hforwarded, hgo⟩
    refine ⟨htakes, htext, fun hne => ?_⟩
    rw [hforwarded, frontendLoop_ofBeMsg] at hinvoked
    cases beInfo with
    | true => rfl
    | false =>
      have hnil : [] = M.beMsg.map (BeMsg.context ch) := congrArg Prod.fst hinvoked
      exact absurd (List.map_eq_nil_iff.mp hnil.symm) hne
  · rintro ⟨htakes, htext, hcallback⟩
    obtain ⟨hforwarded, hgo⟩ := (relay_iff ch M).mpr ⟨htakes, htext⟩
    refine ⟨hforwarded, hgo, ?_⟩
    rw [hforwarded, frontendLoop_ofBeMsg]
    by_cases hnil : M.beMsg = []
    · rw [hnil]
      cases beInfo <;> rfl
    · rw [hcallback hnil]
      rfl

/-! ### Both loops -/

/-- The loops of the facilities partition and of the app, with the messages in flight: `inbox`
    is what has come from the backend and was not read yet, `outbox` what was sent on and not
    read by the app.  `arrived`, `forwarded` and `invoked` are ghosts. -/
structure RelayState where
  inbox : Channel → List FacMessage := fun _ => []
  running : Bool := true
  outbox : Channel → List FacMessage := fun _ => []
  looping : Bool := true
  beInfo : Bool := false
  arrived : Channel → List BeMsg := fun _ => []
  forwarded : Channel → List FacMessage := fun _ => []
  invoked : List MessageContext := []

/-- What happens next: a message comes from the backend, the facilities partition reads one of
    a socket, the app registers its callback, or its frontend reads a message of a socket,
    whose callback may raise. -/
inductive RelayInput
  | arrives (ch : Channel) (M : FacMessage) | relays (ch : Channel) | registers
  | receives (ch : Channel) (raises : Bool)

/-- The step function. -/
def RelayState.next (s : RelayState) : RelayInput → Option RelayState
  | .arrives ch M =>
    some { s with inbox := Function.update s.inbox ch (s.inbox ch ++ [M])
                  arrived := Function.update s.arrived ch (s.arrived ch ++ M.beMsg) }
  | .relays ch =>
    match s.running, s.inbox ch with
    | true, M :: rest =>
      let sent := (relay ch M).1
      some { s with inbox := Function.update s.inbox ch rest
                    running := (relay ch M).2.isNone
                    outbox := Function.update s.outbox ch (s.outbox ch ++ sent)
                    forwarded := Function.update s.forwarded ch (s.forwarded ch ++ sent) }
    | _, _ => none
  | .registers => some { s with beInfo := true }
  | .receives ch raises =>
    match s.looping, s.outbox ch with
    | true, fmsg :: rest =>
      let s := { s with outbox := Function.update s.outbox ch rest }
      match frontendReceives ch s.beInfo fmsg with
      | .error _ => some { s with looping := false }
      | .ok none => some s
      | .ok (some ctx) => some { s with invoked := s.invoked ++ [ctx], looping := !raises }
    | _, _ => none

/-- Both loops, in any order of steps. -/
def relaySystem : TransitionSystem RelayState RelayInput where
  init s := s = {}
  step s a s' := s.next a = some s'

/-- The messages that come are taken, with text in them, and the frontend reads none before the
    app has registered its callback. -/
def RelayGuard (s : RelayState) : RelayInput → Prop
  | .arrives ch M => ch.Takes M ∧ AllText M.beMsg
  | .receives _ _ => s.beInfo = true
  | _ => True

/-- The invocations that some messages make. -/
def contexts (ch : Channel) (Ms : List FacMessage) : List MessageContext :=
  Ms.flatMap fun M => M.beMsg.map (BeMsg.context ch)

/-- **Nothing is lost**: the facilities partition runs, what it has forwarded on a socket and
    what it has not read yet are the `BE_MSG`s that have come, and the invocations for a socket
    and the messages that the frontend has not read are what was forwarded, all in order. -/
structure Delivered (s : RelayState) : Prop where
  running : s.running = true
  forwarded : ∀ ch, s.forwarded ch ++ ((s.inbox ch).flatMap (·.beMsg)).map .ofBeMsg =
    (s.arrived ch).map .ofBeMsg
  invoked : ∀ ch, s.invoked.filter (fun ctx => ctx.type = ch) ++ contexts ch (s.outbox ch) =
    contexts ch (s.forwarded ch)

/-- The invariant of a run: what is in flight is fit to be relayed. -/
structure RelayInv (s : RelayState) : Prop extends Delivered s where
  taken : ∀ ch, ∀ M ∈ s.inbox ch, ch.Takes M ∧ AllText M.beMsg
  single : ∀ ch, ∀ M ∈ s.outbox ch, ∃ m, M = .ofBeMsg m

theorem contexts_append (ch : Channel) (Ms Ms' : List FacMessage) :
    contexts ch (Ms ++ Ms') = contexts ch Ms ++ contexts ch Ms' :=
  List.flatMap_append

section Steps

variable {s s' : RelayState} {ch : Channel}

theorem arrives_inv {M : FacMessage} (h : RelayInv s) (htakes : ch.Takes M ∧ AllText M.beMsg)
    (hs : s.next (.arrives ch M) = some s') : RelayInv s' := by
  cases hs
  refine ⟨⟨h.running, fun ch' => ?_, h.invoked⟩, fun ch' => ?_, h.single⟩
  · by_cases heq : ch' = ch
    · subst heq
      have hold := h.forwarded ch'
      simp only [Function.update_self, List.flatMap_append, List.map_append, ← hold]
      simp
    · simp only [Function.update_of_ne heq]
      exact h.forwarded ch'
  · by_cases heq : ch' = ch
    · subst heq
      simp only [Function.update_self]
      intro M' hM'
      rcases List.mem_append.mp hM' with hM' | hM'
      · exact h.taken ch' M' hM'
      · rw [List.mem_singleton.mp hM']
        exact htakes
    · simp only [Function.update_of_ne heq]
      exact h.taken ch'

theorem relays_inv (h : RelayInv s) (hs : s.next (.relays ch) = some s') : RelayInv s' := by
  unfold RelayState.next at hs
  dsimp only at hs
  split at hs
  · rename_i M rest hrunning hinbox
    cases hs
    -- the message at the head goes through whole
    have hhead : M ∈ s.inbox ch := by
      rw [hinbox]
      exact List.mem_cons_self ..
    obtain ⟨hsent, hgo⟩ := (relay_iff ch M).mpr (h.taken ch M hhead)
    refine ⟨⟨?_, fun ch' => ?_, fun ch' => ?_⟩, fun ch' => ?_, fun ch' => ?_⟩
    · show (relay ch M).2.isNone = true
      rw [hgo]
      rfl
    · by_cases heq : ch' = ch
      · subst heq
        have hold := h.forwarded ch'
        rw [hinbox, List.flatMap_cons, List.map_append] at hold
        simp only [Function.update_self, hsent, List.append_assoc]
        exact hold
      · simp only [Function.update_of_ne heq]
        exact h.forwarded ch'
    · by_cases heq : ch' = ch
      · subst heq
        have hold := h.invoked ch'
        simp only [Function.update_self, contexts_append, ← List.append_assoc, hold]
      · simp only [Function.update_of_ne heq]
        exact h.invoked ch'
    · by_cases heq : ch' = ch
      · subst heq
        simp only [Function.update_self]
        intro M' hM'
        refine h.taken ch' M' ?_
        rw [hinbox]
        exact List.mem_cons_of_mem _ hM'
      · simp only [Function.update_of_ne heq]
        exact h.taken ch'
    · by_cases heq : ch' = ch
      · subst heq
        simp only [Function.update_self, hsent]
        intro M' hM'
        rcases List.mem_append.mp hM' with hM' | hM'
        · exact h.single ch' M' hM'
        · obtain ⟨m, -, rfl⟩ := List.mem_map.mp hM'
          exact ⟨m, rfl⟩
      · simp only [Function.update_of_ne heq]
        exact h.single ch'
  · cases hs

theorem receives_inv {raises : Bool} (h : RelayInv s) (hcallback : s.beInfo = true)
    (hs : s.next (.receives ch raises) = some s') : RelayInv s' := by
  unfold RelayState.next at hs
  dsimp only at hs
  split at hs
  · rename_i fmsg rest hlooping houtbox
    obtain ⟨m, rfl⟩ : ∃ m, fmsg = .ofBeMsg m := by
      refine h.single ch fmsg ?_
      rw [houtbox]
      exact List.mem_cons_self ..
    -- there is one `BE_MSG`, and a callback for it
    have hreceives : frontendReceives ch s.beInfo (.ofBeMsg m) = .ok (some (m.context ch)) := by
      rw [hcallback]
      rfl
    rw [hreceives] at hs
    cases hs
    refine ⟨⟨h.running, h.forwarded, fun ch' => ?_⟩, h.taken, fun ch' => ?_⟩
    · have hold := h.invoked ch'
      by_cases heq : ch' = ch
      · subst heq
        rw [houtbox] at hold
        simp only [Function.update_self, List.filter_append]
        rw [← hold]
        simp [contexts, FacMessage.ofBeMsg, BeMsg.context]
      · have hother : ch ≠ ch' := fun h => heq h.symm
        simp only [Function.update_of_ne heq, List.filter_append]
        rw [← hold]
        simp [BeMsg.context, hother]
    · by_cases heq : ch' = ch
      · subst heq
        simp only [Function.update_self]
        intro M' hM'
        refine h.single ch' M' ?_
        rw [houtbox]
        exact List.mem_cons_of_mem _ hM'
      · simp only [Function.update_of_ne heq]
        exact h.single ch'
  · cases hs

end Steps

/-- Nothing is lost in any run of messages that are relayed without loss. -/
theorem delivered_of_reach {s : RelayState} (h : Reach relaySystem RelayGuard s) :
    Delivered s := by
  refine (h.invariant RelayInv ?_ ?_).toDelivered
  · rintro s rfl
    exact ⟨⟨rfl, fun _ => rfl, fun _ => rfl⟩, fun _ => nofun, fun _ => nofun⟩
  · intro s a s' hinv hguard hs
    cases a with
    | arrives ch M => exact arrives_inv hinv hguard hs
    | relays ch => exact relays_inv hinv hs
    | registers =>
      cases hs
      exact ⟨⟨hinv.running, hinv.forwarded, hinv.invoked⟩, hinv.taken, hinv.single⟩
    | receives ch raises => exact receives_inv hinv hguard hs

/-- **What is relayed without loss.**  For each message, exactly when it fits its socket; and in
    every run in which the messages fit, whatever the order of the steps. -/
theorem backend_relayed (ch : Channel) (beInfo : Bool) (M : FacMessage) {s : RelayState}
    (h : Reach relaySystem RelayGuard s) :
    (Relayed ch beInfo M ↔ ch.Fits beInfo M) ∧ Delivered s :=
  ⟨relayed_iff ch beInfo M, delivered_of_reach h⟩

/-- A broadcast of one `BE_MSG` comes, is relayed and read, and the callback has it. -/
theorem backend_relayed_one :
    Relayed .broadcast true (.ofBeMsg ⟨0, .str ['a']⟩) ∧
      ∃ s, Delivered s ∧ s.outbox .broadcast = [] ∧ s.invoked = [⟨.broadcast, .str ['a']⟩] := by
  let M : FacMessage := .ofBeMsg ⟨0, .str ['a']⟩
  have hinit : Reach relaySystem RelayGuard {} := .init rfl
  have hfits : Channel.broadcast.Takes M ∧ AllText M.beMsg := by
    refine ⟨rfl, fun m hm => ?_⟩
    rw [List.mem_singleton.mp hm]
    exact ⟨['a'], rfl⟩
  have hregisters : Reach relaySystem RelayGuard _ :=
    .step (a := .registers) hinit trivial rfl
  have harrives : Reach relaySystem RelayGuard _ :=
    .step (a := .arrives .broadcast M) hregisters hfits rfl
  have hrelays : Reach relaySystem RelayGuard _ :=
    .step (a := .relays .broadcast) harrives trivial rfl
  have hreceives : Reach relaySystem RelayGuard _ :=
    .step (a := .receives .broadcast false) hrelays rfl rfl
  obtain ⟨hrelayed, hdelivered⟩ := backend_relayed .broadcast true M hreceives
  exact ⟨hrelayed.mpr ⟨hfits.1, hfits.2, fun _ => rfl⟩, _, hdelivered, rfl, rfl⟩

/-- A message of two `BE_MSG`s goes on whole when it is directed.  Of the broadcast the first is
    sent and the second is lost, and a broadcast of none ends the facilities partition. -/
theorem backend_relayed_fails :
    let M : FacMessage :=
      { type := [.beMsg, .beMsg], beMsg := [⟨0, .str ['a']⟩, ⟨0, .str ['b']⟩] }
    (relay .directed M).1 = M.beMsg.map .ofBeMsg ∧
      (relay .broadcast M).1 = [.ofBeMsg ⟨0, .str ['a']⟩] ∧
      (frontendLoop .broadcast true (relay .broadcast M).1).1 = [⟨.broadcast, .str ['a']⟩] ∧
      relay .broadcast {} = ([], some .indexError) ∧
      ¬ Relayed .broadcast true M := by
  refine ⟨rfl, rfl, rfl, rfl, fun h => ?_⟩
  have hlen := congrArg List.length h.forwarded
  exact absurd hlen (by decide)

end Furnace.Fac
