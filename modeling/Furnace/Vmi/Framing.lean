import Furnace.Vmi.Exchange
import Mathlib.Data.List.TakeWhile

namespace Furnace.Vmi

open Furnace.Proto Furnace.Lib

/-!
# Multipart messages

`process_zmq` takes the parts of a message off the ROUTER socket one by one: the first is the
identity of the sender, the second is skipped, the third is the request, and what comes after
is reported and skipped.  Every part but the second must not be empty.

* `processParts` — one multipart message; `processZmq` — those that are waiting.
* `Framed` — what is wanted of a message: exactly the messages of three parts, the second
  empty, are answered, to the identity they came from.
* `WellFramed` — the messages of which that holds.
* `processZmq_framed` — **a sequence of messages is framed** exactly when each of them is well
  framed.
-/

variable {G : Type}

/-- The furnace object: the members of a request, and everything else. -/
structure Server (G : Type) where
  members : Members := {}
  vmi : World G

/-- The local variables of `process_zmq` while it goes through the parts of a message, and the
    multipart messages it has sent. -/
structure Parts (G : Type) where
  part : ℕ := 1
  ident : Bytes := []
  server : Server G
  sent : List (List Bytes) := []

section Loop

variable (P : Protobuf) (env : Env G) (leftover : ℕ → Bytes)

/-- `zmq_msend`: the identity is a C string. -/
def zmqMsend (ident r : Bytes) : List Bytes := [ident, [], r]

/-- The body of the loop over the parts: `buf` is the part, and `rc` its size. -/
def processPart (buf : Bytes) (s : Parts G) : Except Fault (Parts G) :=
  -- can be empty only where the delimiter is expected
  if s.part ≠ 2 ∧ ¬ 0 < buf.length then .error .assertion
  else
    match s.part with
    | 1 =>
      -- `strndup` copies up to a NUL
      let ident := cStr buf
      .ok { s with part := 2, ident := ident,
                   server := { s.server with vmi := { s.server.vmi with scratchIdent := ident } } }
    | 2 => .ok { s with part := 3 }
    | 3 => do
      let (members, vmi, r) ← processBytes P env leftover buf s.server.members s.server.vmi
      .ok { s with part := 4, server := ⟨members, vmi⟩, sent := s.sent ++ [zmqMsend s.ident r] }
    | part => .ok { s with part := part + 1 }

/-- One multipart message: the furnace afterwards, and what it has sent. -/
def processParts (frames : List Bytes) (s : Server G) :
    Except Fault (Server G × List (List Bytes)) := do
  let p ← frames.foldlM (fun p buf => processPart P env leftover buf p) { server := s }
  .ok (p.server, p.sent)

/-- `process_zmq`: the messages that are waiting, and what each of them is answered. -/
def processZmq : List (List Bytes) → Server G → Except Fault (Server G × List (List (List Bytes)))
  | [], s => .ok (s, [])
  | frames :: rest, s => do
    let (s, sent) ← processParts P env leftover frames s
    let (s, sents) ← processZmq rest s
    .ok (s, sent :: sents)

/-- The reply to a payload, in the name of a client. -/
def answer (ident payload : Bytes) (s : Server G) : Except Fault (Server G × List (List Bytes)) :=
  do
    let (members, vmi, r) ← processBytes P env leftover payload s.members
      { s.vmi with scratchIdent := ident }
    .ok (⟨members, vmi⟩, [[ident, [], r]])

/-- **What is wanted of one message.** A request is answered exactly once, to the identity it
    came from; another message is not answered, and does no harm. -/
def Framed (frames : List Bytes) (s : Server G) : Prop :=
  match frames with
  | [ident, [], payload] =>
    processParts P env leftover frames s = answer P env leftover ident payload s
  | _ => ∃ s', processParts P env leftover frames s = .ok (s', [])

/-- What is wanted of the messages that are waiting. -/
def FramedAll : List (List Bytes) → Server G → Prop
  | [], _ => True
  | frames :: rest, s =>
    Framed P env leftover frames s ∧
      ∀ s' sent, processParts P env leftover frames s = .ok (s', sent) → FramedAll rest s'

/-- `process_protobuf` returns for every request that is waiting. -/
def ReturnsAll : List (List Bytes) → Server G → Prop
  | [], _ => True
  | frames :: rest, s =>
    (∀ ident payload, frames = [ident, [], payload] →
      ∃ r, answer P env leftover ident payload s = .ok r) ∧
      ∀ s' sent, processParts P env leftover frames s = .ok (s', sent) → ReturnsAll rest s'

end Loop

/-- Nothing but an identity, at most a delimiter with it, or a request of three parts whose
    payload is not empty and whose identity has no NUL. -/
def WellFramed : List Bytes → Prop
  | [_] | [_, _] => True
  | [ident, [], payload] => 0 ∉ ident ∧ payload ≠ []
  | _ => False

/-! ### The parts of a message -/

section Proofs

variable {P : Protobuf} {env : Env G} {leftover : ℕ → Bytes}

/-- A C string is the whole text exactly when the text has no NUL. -/
theorem cStr_eq_self_iff {b : Bytes} : cStr b = b ↔ 0 ∉ b := by
  unfold cStr
  rw [List.takeWhile_eq_self_iff]
  constructor
  · intro h hmem
    simpa using h 0 hmem
  · intro h x hx
    have hne : x ≠ 0 := fun heq => h (heq ▸ hx)
    simpa using hne

/-- Outside the second part, an empty part ends the partition. -/
theorem processPart_empty {p : Parts G} (hpart : p.part ≠ 2) :
    processPart P env leftover [] p = .error .assertion := by
  unfold processPart
  rw [if_pos ⟨hpart, by simp⟩]

/-- The first part is copied as the identity. -/
theorem processPart_first {ident : Bytes} (hident : ident ≠ []) (s : Server G) :
    processPart P env leftover ident { server := s } =
      .ok { part := 2, ident := cStr ident,
            server := { s with vmi := { s.vmi with scratchIdent := cStr ident } } } := by
  have hpos : 0 < ident.length := List.length_pos_iff.mpr hident
  unfold processPart
  rw [if_neg fun h => h.2 hpos]
  rfl

/-- The second part is skipped, empty or not. -/
theorem processPart_delimiter {p : Parts G} (hpart : p.part = 2) (buf : Bytes) :
    processPart P env leftover buf p = .ok { p with part := 3 } := by
  unfold processPart
  rw [if_neg fun h => h.1 hpart]
  rcases p with ⟨part, ident, server, sent⟩
  cases hpart
  rfl

/-- The third part is the request. -/
theorem processPart_request {p : Parts G} (hpart : p.part = 3) {buf : Bytes} (hbuf : buf ≠ []) :
    processPart P env leftover buf p =
      (do
        let (members, vmi, r) ← processBytes P env leftover buf p.server.members p.server.vmi
        .ok { p with part := 4, server := ⟨members, vmi⟩,
                     sent := p.sent ++ [zmqMsend p.ident r] }) := by
  have hpos : 0 < buf.length := List.length_pos_iff.mpr hbuf
  unfold processPart
  rw [if_neg fun h => h.2 hpos]
  rcases p with ⟨part, ident, server, sent⟩
  cases hpart
  rfl

/-- A message without a third part is not answered. -/
theorem processParts_short {ident : Bytes} (hident : ident ≠ []) {rest : List Bytes}
    (hrest : rest.length ≤ 1) (s : Server G) :
    processParts P env leftover (ident :: rest) s =
      .ok ({ s with vmi := { s.vmi with scratchIdent := cStr ident } }, []) := by
  unfold processParts
  rw [List.foldlM_cons, processPart_first hident, ok_bind]
  match rest, hrest with
  | [], _ => rfl
  | [_], _ =>
    rw [List.foldlM_cons, processPart_delimiter rfl]
    rfl

/-- The third part is answered, to the C string of the identity. -/
theorem processParts_request {ident : Bytes} (hident : ident ≠ []) {payload : Bytes}
    (hpayload : payload ≠ []) (delimiter : Bytes) (s : Server G) :
    processParts P env leftover [ident, delimiter, payload] s =
      answer P env leftover (cStr ident) payload s := by
  unfold processParts
  rw [List.foldlM_cons, processPart_first hident, ok_bind, List.foldlM_cons,
    processPart_delimiter rfl, ok_bind, List.foldlM_cons, processPart_request rfl hpayload]
  unfold answer
  dsimp only
  cases processBytes P env leftover payload s.members
      { s.vmi with scratchIdent := cStr ident } with
  | error e => rfl
  | ok r => rfl

/-- An empty request ends the partition. -/
theorem processParts_emptyRequest {ident : Bytes} (hident : ident ≠ []) (delimiter : Bytes)
    (s : Server G) :
    processParts P env leftover [ident, delimiter, []] s = .error .assertion := by
  unfold processParts
  rw [List.foldlM_cons, processPart_first hident, ok_bind, List.foldlM_cons,
    processPart_delimiter rfl, ok_bind, List.foldlM_cons, processPart_empty (Nat.succ_ne_self 2)]
  rfl

/-- The parts after the request send nothing. -/
theorem sent_of_extra {rest : List Bytes} {p p' : Parts G} (hpart : 3 < p.part)
    (h : rest.foldlM (fun p buf => processPart P env leftover buf p) p = .ok p') :
    p'.sent = p.sent := by
  induction rest generalizing p with
  | nil =>
    cases h
    rfl
  | cons buf rest ih =>
    rw [List.foldlM_cons] at h
    obtain ⟨p₁, h₁, h⟩ := bind_eq_ok.mp h
    unfold processPart at h₁
    split at h₁
    · cases h₁
    split at h₁
    · omega
    · omega
    · omega
    · cases h₁
      have hlater : 3 < p.part + 1 := by omega
      have hsent := ih hlater h
      exact hsent

/-- A message with a third part is answered, whatever its second part and its parts after
    the third are. -/
theorem sent_ne_nil {ident delimiter payload : Bytes} {rest : List Bytes} {s s' : Server G}
    {sent : List (List Bytes)}
    (h : processParts P env leftover (ident :: delimiter :: payload :: rest) s =
      .ok (s', sent)) : sent ≠ [] := by
  unfold processParts at h
  obtain ⟨p, hp, h⟩ := bind_eq_ok.mp h
  cases h
  rw [List.foldlM_cons] at hp
  obtain ⟨p₁, h₁, hp⟩ := bind_eq_ok.mp hp
  rw [List.foldlM_cons] at hp
  obtain ⟨p₂, h₂, hp⟩ := bind_eq_ok.mp hp
  rw [List.foldlM_cons] at hp
  obtain ⟨p₃, h₃, hp⟩ := bind_eq_ok.mp hp
  -- the counter of the parts says which branch was taken
  have hpart₁ : p₁.part = 2 := by
    by_cases hident : ident = []
    · rw [hident, processPart_empty (by simp)] at h₁
      cases h₁
    · rw [processPart_first hident] at h₁
      cases h₁
      rfl
  rw [processPart_delimiter hpart₁] at h₂
  cases h₂
  by_cases hpayload : payload = []
  · rw [hpayload, processPart_empty (by simp)] at h₃
    cases h₃
  · rw [processPart_request rfl hpayload] at h₃
    obtain ⟨⟨members, vmi, r⟩, -, h₃⟩ := bind_eq_ok.mp h₃
    cases h₃
    rw [sent_of_extra (Nat.lt_succ_self 3) hp]
    simp

/-- **One message.** When `process_protobuf` returns for its payload, a message with an identity
    is framed exactly when it is well framed. -/
theorem framed_iff {frames : List Bytes} {s : Server G}
    (hident : ∀ b, frames.head? = some b → b ≠ []) (hsome : frames ≠ [])
    (hret : ∀ ident payload, frames = [ident, [], payload] →
      ∃ r, answer P env leftover ident payload s = .ok r) :
    Framed P env leftover frames s ↔ WellFramed frames := by
  match frames, hident, hsome, hret with
  | [ident], hident, _, _ =>
    exact iff_of_true ⟨_, processParts_short (hident _ rfl) (by simp) s⟩ trivial
  | [ident, delimiter], hident, _, _ =>
    have hsent : ∃ s', processParts P env leftover [ident, delimiter] s = .ok (s', []) :=
      ⟨_, processParts_short (hident _ rfl) (by simp) s⟩
    cases delimiter <;> exact iff_of_true hsent trivial
  | [ident, [], payload], hident, _, hret =>
    obtain ⟨⟨s', sent⟩, hanswer⟩ := hret ident payload rfl
    show processParts P env leftover [ident, [], payload] s = _ ↔ 0 ∉ ident ∧ payload ≠ []
    by_cases hpayload : payload = []
    · subst hpayload
      rw [processParts_emptyRequest (hident _ rfl), hanswer]
      simp
    · rw [processParts_request (hident _ rfl) hpayload, ← cStr_eq_self_iff]
      constructor
      · intro heq
        refine ⟨?_, hpayload⟩
        -- the identity frames of the two replies are the same
        rw [hanswer] at heq
        unfold answer at heq hanswer
        obtain ⟨⟨members, vmi, r⟩, -, heq⟩ := bind_eq_ok.mp heq
        obtain ⟨⟨members', vmi', r'⟩, -, hanswer⟩ := bind_eq_ok.mp hanswer
        cases hanswer
        have hsent := (Prod.mk.inj (Except.ok.inj heq)).2
        exact (List.cons.inj (List.cons.inj hsent).1).1
      · rintro ⟨heq, -⟩
        rw [heq]
  | [ident, b :: bs, payload], _, _, _ =>
    refine iff_of_false ?_ (fun h => h)
    rintro ⟨s', h⟩
    exact sent_ne_nil h rfl
  | ident :: delimiter :: payload :: extra :: rest, _, _, _ =>
    have hnot : ¬ WellFramed (ident :: delimiter :: payload :: extra :: rest) := by
      cases delimiter <;> exact fun h => h
    refine iff_of_false ?_ hnot
    intro h
    have hsent : ∃ s', processParts P env leftover
        (ident :: delimiter :: payload :: extra :: rest) s = .ok (s', []) := by
      cases delimiter <;> exact h
    obtain ⟨s', h⟩ := hsent
    exact sent_ne_nil h rfl

/-- A well-framed message is dealt with when its request returns. -/
theorem processParts_returns {frames : List Bytes} {s : Server G}
    (hframed : Framed P env leftover frames s)
    (hret : ∀ ident payload, frames = [ident, [], payload] →
      ∃ r, answer P env leftover ident payload s = .ok r) :
    ∃ s' sent, processParts P env leftover frames s = .ok (s', sent) := by
  unfold Framed at hframed
  split at hframed
  · rename_i ident payload
    obtain ⟨⟨s', sent⟩, hanswer⟩ := hret ident payload rfl
    exact ⟨s', sent, hframed.trans hanswer⟩
  · obtain ⟨s', h⟩ := hframed
    exact ⟨s', [], h⟩

end Proofs

/-- **A sequence of messages is framed** exactly when each of them is well framed: when every
    request that is reached returns, and each message starts with an identity. -/
theorem processZmq_framed {P : Protobuf} {env : Env G} {leftover : ℕ → Bytes}
    {msgs : List (List Bytes)} {s : Server G}
    (hident : ∀ frames ∈ msgs, ∃ ident rest, frames = ident :: rest ∧ ident ≠ [])
    (hret : ReturnsAll P env leftover msgs s) :
    FramedAll P env leftover msgs s ↔ ∀ frames ∈ msgs, WellFramed frames := by
  induction msgs generalizing s with
  | nil => simp [FramedAll]
  | cons frames msgs ih =>
    obtain ⟨ident, rest, rfl, hne⟩ := hident frames (by simp)
    obtain ⟨hret₁, hret⟩ := hret
    have hone : Framed P env leftover (ident :: rest) s ↔ WellFramed (ident :: rest) := by
      refine framed_iff (fun b hb => ?_) (by simp) hret₁
      cases hb
      exact hne
    have hrest := fun s' sent h =>
      ih (s := s') (fun frames hmem => hident frames (List.mem_cons_of_mem _ hmem))
        (hret s' sent h)
    rw [List.forall_mem_cons]
    constructor
    · rintro ⟨hframed, hnext⟩
      refine ⟨hone.mp hframed, ?_⟩
      obtain ⟨s', sent, h⟩ := processParts_returns hframed hret₁
      exact (hrest s' sent h).mp (hnext s' sent h)
    · rintro ⟨hwell, hall⟩
      exact ⟨hone.mpr hwell, fun s' sent h => (hrest s' sent h).mpr hall⟩

/-- A protobuf runtime on requests without a field that the partition knows: such a request
    decodes to the empty message, and the empty message has no bytes. -/
def unknownFields : Protobuf where
  parse _ := (true, VMIMessage.empty)
  serialize _ := []

/-- The identity `f0-r`. -/
def routerIdentity : Bytes := [102, 48, 45, 114]

/-- A request with a field of its own, number 1000. -/
def unknownField : Bytes := [192, 62, 1]

/-- A request, and a message that is nothing but an identity. -/
theorem processZmq_framed_request :
    FramedAll unknownFields echoEnv (fun _ => []) [[routerIdentity, [], unknownField],
      [routerIdentity]] { vmi := World.initial () } ↔
    ∀ frames ∈ [[routerIdentity, [], unknownField], [routerIdentity]], WellFramed frames := by
  apply processZmq_framed
  · intro frames hframes
    rcases List.mem_cons.mp hframes with rfl | hframes
    · exact ⟨_, _, rfl, by decide⟩
    · rw [List.mem_singleton.mp hframes]
      exact ⟨_, _, rfl, by decide⟩
  · refine ⟨fun ident payload h => ?_, fun s' sent _ => ⟨fun ident payload h => ?_, ?_⟩⟩
    · cases h
      exact ⟨_, rfl⟩
    · cases h
    · intro s'' sent' _
      trivial

/-- **Any client can end the partition** with an empty payload, and a message with one part too
    many does it when that part is empty; an identity with a NUL is not answered. -/
theorem processZmq_framed_fails :
    processZmq unknownFields echoEnv (fun _ => []) [[routerIdentity, [], []]]
      { vmi := World.initial () } = .error .assertion ∧
    processZmq unknownFields echoEnv (fun _ => []) [[routerIdentity, [], unknownField, []]]
      { vmi := World.initial () } = .error .assertion ∧
    (∀ frames ∈ [[[routerIdentity, [], []]], [[routerIdentity, [], unknownField, []]],
        [[[102, 0, 114], [], unknownField]]],
      ¬ FramedAll unknownFields echoEnv (fun _ => []) frames { vmi := World.initial () }) := by
  refine ⟨rfl, rfl, ?_⟩
  intro frames hframes h
  rcases List.mem_cons.mp hframes with rfl | hframes
  · have hequal : Except.error Fault.assertion = answer unknownFields echoEnv (fun _ => [])
        routerIdentity [] { vmi := World.initial () } := h.1
    cases hequal
  rcases List.mem_cons.mp hframes with rfl | hframes
  · obtain ⟨s', hs'⟩ := h.1
    cases hs'
  · obtain rfl := List.mem_singleton.mp hframes
    have hequal : answer unknownFields echoEnv (fun _ => []) [102] unknownField
        { vmi := World.initial () } =
      answer unknownFields echoEnv (fun _ => []) [102, 0, 114] unknownField
        { vmi := World.initial () } := h.1
    cases hequal

end Furnace.Vmi
