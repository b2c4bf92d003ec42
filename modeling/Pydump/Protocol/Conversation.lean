/-
# Conversations

What a routine of the Collector hears and says, without the bytes: `Performs`
takes a socket through a list of events, and `Speaks` gives the language of a
routine, the events after which it returns, one rule for each way to put routines
together.  A routine that receives until the other end stops it can run out of
rounds; `Speaks` says that it has then received at least so many frames.

Two kinds of other ends stand at the end: one that has said everything beforehand, so
that with `ReadyBefore` its frames decide which conversations take place, and one that
answers what it is sent.
-/

import Pydump.Protocol.BulkGrammar

namespace Pydump
namespace Protocol

open Capture (CaptureError)
open ExceptLoop (Avoids run_bind_ok run_bind_error run_bind_eq_error run_get_bind run_lift_bind)

variable {π α β : Type}

/-! ### Routines that do not run out of rounds -/

/-- `recv_into` comes to an end. -/
theorem avoids_recvInto (size : ℕ) : Avoids .diverged (recvInto size : Framed π (List UInt8)) := by
  intro channel
  unfold recvInto
  split
  · split_ifs
    · exact fun h => by cases h
    · exact fun h => by cases h
  · exact fun h => by cases h

/-- A round that brings nothing raises, so `missing` rounds are enough. -/
theorem avoids_receiveLoop (rounds : ℕ) {missing : ℕ} (hrounds : missing ≤ rounds) (chunks : List UInt8) :
    Avoids .diverged (receiveLoop rounds missing chunks : Framed π (List UInt8)) := by
  induction rounds generalizing missing chunks with
  | zero =>
    obtain rfl := Nat.le_zero.1 hrounds
    exact Avoids.pure chunks
  | succ rounds ih =>
    cases missing with
    | zero => exact Avoids.pure chunks
    | succ missing =>
      refine (avoids_recvInto (missing + 1)).bind fun bytes => ?_
      split_ifs with hempty
      · exact Avoids.throw (by simp)
      · exact ih (by omega) _

/-- A read of a given size comes to an end. -/
theorem avoids_receiveExact (size : ℕ) : Avoids .diverged (receiveExact size : Framed π (List UInt8)) :=
  avoids_receiveLoop size (Nat.le_refl size) []

/-- A read of a wire frame comes to an end. -/
theorem avoids_receiveWireFrame : Avoids .diverged (receiveWireFrame : Framed π Frame) := by
  refine (avoids_receiveExact HEADER_SIZE).bind fun header => ?_
  refine Avoids.ite (Avoids.throw (by simp)) (Avoids.ite (Avoids.throw (by simp)) (Avoids.ite (Avoids.throw (by simp))
    (Avoids.ite (Avoids.throw (by simp)) ?_)))
  split
  · exact Avoids.throw (by simp)
  · exact (avoids_receiveExact _).bind fun payload => Avoids.pure _

/-- Handing out a frame comes to an end. -/
theorem avoids_handOut (frame : Frame) : Avoids .diverged (handOut frame : Framed π Frame) := by
  refine Avoids.ite (Avoids.pure frame) ((Avoids.lift ?_).bind fun records => ?_)
  · rcases decodeBulkBatch_total frame.payload with ⟨records, -, hrun⟩ | ⟨message, hrun⟩ <;> simp [hrun]
  · cases records with
    | nil => exact Avoids.throw (by simp)
    | cons record rest => exact fun channel h => by cases h

/-- **`receive` never runs out of rounds**, whatever bytes come. -/
theorem avoids_receive : Avoids .diverged (receive : Framed π Frame) := by
  intro channel
  rw [receive, run_get_bind]
  cases hpending : channel.pending with
  | cons frame pending => exact fun h => by cases h
  | nil => exact avoids_receiveWireFrame.bind avoids_handOut channel

/-- A send comes to an end. -/
theorem avoids_send (peer : Peer π) (kind : FrameKind) (payload : List UInt8) :
    Avoids .diverged (send peer kind payload) := by
  refine Avoids.ite (Avoids.throw (by simp)) fun channel => ?_
  unfold sendall
  split
  · exact fun h => by cases h
  · exact fun h => by cases h

/-! ### Events -/

/-- What passes between the two ends, as the Collector sees it. -/
inductive Event
  | received (frame : Frame)
  | sent (kind : FrameKind) (payload : List UInt8)
  deriving DecidableEq

/-- The frames that were received. -/
def heard : List Event → List Frame
  | [] => []
  | .received frame :: events => frame :: heard events
  | .sent _ _ :: events => heard events

/-- The number of frames that were sent. -/
def told : List Event → ℕ
  | [] => 0
  | .received _ :: events => told events
  | .sent _ _ :: events => told events + 1

/-- What is heard, part by part. -/
theorem heard_append (xs ys : List Event) : heard (xs ++ ys) = heard xs ++ heard ys := by
  induction xs with
  | nil => rfl
  | cons event xs ih =>
    cases event with
    | received frame => exact congrArg (frame :: ·) ih
    | sent kind payload => exact ih

/-- What is told, part by part. -/
theorem told_append (xs ys : List Event) : told (xs ++ ys) = told xs + told ys := by
  induction xs with
  | nil => rw [List.nil_append, told, Nat.zero_add]
  | cons event xs ih =>
    cases event with
    | received frame => exact ih
    | sent kind payload =>
      rw [List.cons_append, told, told, ih]
      omega

/-- The frames of a list, one received after the other. -/
def receipts (frames : List Frame) : List Event := frames.map .received

/-- Of receipts all is heard. -/
@[simp] theorem heard_receipts (frames : List Frame) : heard (receipts frames) = frames := by
  induction frames with
  | nil => rfl
  | cons frame frames ih => exact congrArg (frame :: ·) ih

/-- In receipts nothing is told. -/
@[simp] theorem told_receipts (frames : List Frame) : told (receipts frames) = 0 := by
  induction frames with
  | nil => rfl
  | cons frame frames ih => exact ih

/-- Receipts, part by part. -/
theorem receipts_append (xs ys : List Frame) : receipts (xs ++ ys) = receipts xs ++ receipts ys := List.map_append

/-- The socket goes through the events. -/
inductive Performs (peer : Peer π) : FramedSocket π → List Event → FramedSocket π → Prop
  | nil (channel) : Performs peer channel [] channel
  | received {channel channel' channel'' frame events} (first : receive channel = .ok (frame, channel'))
      (rest : Performs peer channel' events channel'') : Performs peer channel (.received frame :: events) channel''
  | sent {channel channel' channel'' kind payload events} (first : send peer kind payload channel = .ok ((), channel'))
      (rest : Performs peer channel' events channel'') :
      Performs peer channel (.sent kind payload :: events) channel''

namespace Performs

variable {peer : Peer π} {channel channel' channel'' : FramedSocket π} {xs ys : List Event}

/-- One conversation after another. -/
theorem append (h : Performs peer channel xs channel') (h' : Performs peer channel' ys channel'') :
    Performs peer channel (xs ++ ys) channel'' := by
  induction h with
  | nil channel => exact h'
  | received first _ ih => exact .received first (ih h')
  | sent first _ ih => exact .sent first (ih h')

/-- A conversation falls into its parts. -/
theorem append_iff : Performs peer channel (xs ++ ys) channel'' ↔
    ∃ channel', Performs peer channel xs channel' ∧ Performs peer channel' ys channel'' := by
  constructor
  · intro h
    induction xs generalizing channel with
    | nil => exact ⟨channel, .nil channel, h⟩
    | cons event xs ih =>
      cases h with
      | received first rest =>
        obtain ⟨channel', hxs, hys⟩ := ih rest
        exact ⟨channel', .received first hxs, hys⟩
      | sent first rest =>
        obtain ⟨channel', hxs, hys⟩ := ih rest
        exact ⟨channel', .sent first hxs, hys⟩
  · rintro ⟨channel', hxs, hys⟩
    exact hxs.append hys

/-- An empty conversation leaves the channel. -/
theorem nil_iff : Performs peer channel [] channel' ↔ channel' = channel := by
  constructor
  · intro h
    cases h
    rfl
  · rintro rfl
    exact .nil _

end Performs

/-! ### The language of a routine -/

/-- The routine returns exactly after the events of its language, and where it runs
out of rounds it has received at least `rounds` frames. -/
structure Speaks (peer : Peer π) (rounds : ℕ) (routine : Framed π α) (language : List Event → α → Prop) : Prop where
  returns : ∀ channel a channel', routine channel = .ok (a, channel') ↔
    ∃ events, language events a ∧ Performs peer channel events channel'
  diverges : ∀ channel, routine channel = .error .diverged →
    ∃ events channel', rounds ≤ (heard events).length ∧ Performs peer channel events channel'

namespace Speaks

variable {peer : Peer π} {rounds : ℕ}

/-- Equivalent languages. -/
theorem congr {m : Framed π α} {L L' : List Event → α → Prop} (h : Speaks peer rounds m L)
    (hL : ∀ events a, L events a ↔ L' events a) : Speaks peer rounds m L' where
  returns := by
    intro channel a channel'
    simp only [h.returns, hL]
  diverges := h.diverges

/-- A smaller bound on the rounds. -/
theorem mono {m : Framed π α} {L : List Event → α → Prop} (h : Speaks peer rounds m L) {rounds' : ℕ}
    (hle : rounds' ≤ rounds) : Speaks peer rounds' m L where
  returns := h.returns
  diverges := by
    intro channel hdiv
    obtain ⟨events, channel', hlen, hperf⟩ := h.diverges channel hdiv
    exact ⟨events, channel', hle.trans hlen, hperf⟩

/-- `pure` says nothing. -/
protected theorem pure (a : α) :
    Speaks peer rounds (pure a : Framed π α) fun events b => events = [] ∧ b = a where
  returns := by
    intro channel b channel'
    constructor
    · intro h
      cases h
      exact ⟨[], ⟨rfl, rfl⟩, .nil _⟩
    · rintro ⟨events, ⟨rfl, rfl⟩, hperf⟩
      rw [Performs.nil_iff.1 hperf]
      rfl
  diverges := by
    intro channel h
    cases h

/-- A routine that raises. -/
theorem throw {e : CaptureError} (he : e ≠ .diverged) :
    Speaks peer rounds (throw e : Framed π α) fun _ _ => False where
  returns := by
    intro channel b channel'
    constructor
    · intro h
      cases h
    · rintro ⟨events, h, -⟩
      exact h.elim
  diverges := by
    intro channel h
    exact absurd (Except.error.inj h) he

/-- **In sequence.** -/
protected theorem bind {m : Framed π α} {f : α → Framed π β} {L : List Event → α → Prop}
    {M : α → List Event → β → Prop} (hm : Speaks peer rounds m L) (hf : ∀ a, Speaks peer rounds (f a) (M a)) :
    Speaks peer rounds (m >>= f) fun events b => ∃ xs ys a, events = xs ++ ys ∧ L xs a ∧ M a ys b where
  returns := by
    intro channel b channel''
    constructor
    · intro h
      cases hrun : m channel with
      | error e =>
        rw [run_bind_error hrun] at h
        cases h
      | ok p =>
        obtain ⟨a, channel'⟩ := p
        rw [run_bind_ok hrun] at h
        obtain ⟨xs, hxs, hperf⟩ := (hm.returns channel a channel').1 hrun
        obtain ⟨ys, hys, hperf'⟩ := ((hf a).returns channel' b channel'').1 h
        exact ⟨xs ++ ys, ⟨xs, ys, a, rfl, hxs, hys⟩, hperf.append hperf'⟩
    · rintro ⟨events, ⟨xs, ys, a, rfl, hxs, hys⟩, hperf⟩
      obtain ⟨channel', hperf₁, hperf₂⟩ := Performs.append_iff.1 hperf
      rw [run_bind_ok ((hm.returns channel a channel').2 ⟨xs, hxs, hperf₁⟩)]
      exact ((hf a).returns channel' b channel'').2 ⟨ys, hys, hperf₂⟩
  diverges := by
    intro channel h
    rcases run_bind_eq_error.1 h with h | ⟨a, channel', hrun, h⟩
    · exact hm.diverges channel h
    · obtain ⟨xs, -, hperf⟩ := (hm.returns channel a channel').1 hrun
      obtain ⟨ys, channel'', hlen, hperf'⟩ := (hf a).diverges channel' h
      refine ⟨xs ++ ys, channel'', ?_, hperf.append hperf'⟩
      rw [heard_append, List.length_append]
      omega

/-- **A frame that is received first.** -/
theorem receive_bind {f : Frame → Framed π β} {M : Frame → List Event → β → Prop}
    (hf : ∀ frame, Speaks peer rounds (f frame) (M frame)) :
    Speaks peer (rounds + 1) (receive >>= f) fun events b =>
      ∃ frame ys, events = .received frame :: ys ∧ M frame ys b where
  returns := by
    intro channel b channel''
    constructor
    · intro h
      cases hrun : receive channel with
      | error e =>
        rw [run_bind_error hrun] at h
        cases h
      | ok p =>
        obtain ⟨frame, channel'⟩ := p
        rw [run_bind_ok hrun] at h
        obtain ⟨ys, hys, hperf⟩ := ((hf frame).returns channel' b channel'').1 h
        exact ⟨_, ⟨frame, ys, rfl, hys⟩, .received hrun hperf⟩
    · rintro ⟨events, ⟨frame, ys, rfl, hys⟩, hperf⟩
      cases hperf with
      | received first rest =>
        rw [run_bind_ok first]
        exact ((hf frame).returns _ b channel'').2 ⟨ys, hys, rest⟩
  diverges := by
    intro channel h
    rcases run_bind_eq_error.1 h with h | ⟨frame, channel', hrun, h⟩
    · exact absurd h (avoids_receive channel)
    · obtain ⟨ys, channel'', hlen, hperf⟩ := (hf frame).diverges channel' h
      exact ⟨.received frame :: ys, channel'', Nat.succ_le_succ hlen, .received hrun hperf⟩

/-- **A frame that is sent first.** -/
theorem send_bind {kind : FrameKind} {payload : List UInt8} {f : Unit → Framed π β} {M : List Event → β → Prop}
    (hf : Speaks peer rounds (f ()) M) :
    Speaks peer rounds (send peer kind payload >>= f) fun events b =>
      ∃ ys, events = .sent kind payload :: ys ∧ M ys b where
  returns := by
    intro channel b channel''
    constructor
    · intro h
      cases hrun : send peer kind payload channel with
      | error e =>
        rw [run_bind_error hrun] at h
        cases h
      | ok p =>
        obtain ⟨⟨⟩, channel'⟩ := p
        rw [run_bind_ok hrun] at h
        obtain ⟨ys, hys, hperf⟩ := (hf.returns channel' b channel'').1 h
        exact ⟨_, ⟨ys, rfl, hys⟩, .sent hrun hperf⟩
    · rintro ⟨events, ⟨ys, rfl, hys⟩, hperf⟩
      cases hperf with
      | sent first rest =>
        rw [run_bind_ok first]
        exact (hf.returns _ b channel'').2 ⟨ys, hys, rest⟩
  diverges := by
    intro channel h
    rcases run_bind_eq_error.1 h with h | ⟨⟨⟩, channel', hrun, h⟩
    · exact absurd h (avoids_send peer kind payload channel)
    · obtain ⟨ys, channel'', hlen, hperf⟩ := hf.diverges channel' h
      exact ⟨.sent kind payload :: ys, channel'', hlen, .sent hrun hperf⟩

/-- A computation that neither receives nor sends first. -/
theorem lift_bind {x : Except CaptureError α} {f : α → Framed π β} {M : α → List Event → β → Prop}
    (hx : x ≠ .error .diverged) (hf : ∀ a, x = .ok a → Speaks peer rounds (f a) (M a)) :
    Speaks peer rounds ((liftM x : Framed π α) >>= f) fun events b => ∃ a, x = .ok a ∧ M a events b := by
  cases hcase : x with
  | error e =>
    have he : e ≠ .diverged := by
      rintro rfl
      exact hx hcase
    refine (throw he).congr fun events b => ?_
    simp only [reduceCtorEq, false_and, exists_false]
  | ok a =>
    have hrun : ((liftM (Except.ok a : Except CaptureError α) : Framed π α) >>= f) = f a := by
      funext channel
      exact run_lift_bind rfl
    rw [hrun]
    refine (hf a hcase).congr fun events b => ?_
    simp only [Except.ok.injEq, exists_eq_left']

end Speaks

/-! ### A peer that has said everything -/

/-- A process that sends nothing more, over a connection that lasts for so many
`sendall`s. -/
def silent : Peer ℕ where
  respond sends _ :=
    match sends with
    | 0 => none
    | sends + 1 => some (sends, [])

/-- What is left on the wire where the other end stops: the beginning of a frame, or
nothing. -/
def BreaksOff (tail : List UInt8) : Prop :=
  ∃ (frame : Frame) (n : ℕ), frame.payload.length ≤ MAX_PAYLOAD ∧ n < frame.bytes.length ∧ tail = frame.bytes.take n

/-- A peer that says nothing breaks off at the first frame. -/
theorem breaksOff_nil : BreaksOff [] := ⟨⟨.hello, []⟩, 0, by decide, by decide, rfl⟩

/-- Every payload that was sent is short enough. -/
def Sendable (events : List Event) : Prop := ∀ kind payload, .sent kind payload ∈ events → payload.length ≤ MAX_PAYLOAD

/-- A send to a silent peer is counted, and that is all. -/
theorem send_silent {kind : FrameKind} {payload : List UInt8} {channel channel' : FramedSocket ℕ} :
    send silent kind payload channel = .ok ((), channel') ↔
      payload.length ≤ MAX_PAYLOAD ∧ channel.peer = channel'.peer + 1 ∧
        channel' = { channel with peer := channel'.peer } := by
  obtain ⟨incoming, reset, sends, pending⟩ := channel
  unfold send
  split_ifs with hlong
  · refine ⟨fun h => ?_, fun h => ?_⟩
    · cases h
    · omega
  · cases sends with
    | zero =>
      refine ⟨fun h => ?_, fun h => ?_⟩
      · cases h
      · exact absurd h.2.1 (by simp)
    | succ sends =>
      have hrun : sendall silent (packHeader kind payload.length ++ payload)
        (⟨incoming, reset, sends + 1, pending⟩ : FramedSocket ℕ) =
          .ok ((), ⟨incoming, reset, sends, pending⟩) := by
        simp only [sendall, silent, List.append_nil]
      rw [hrun]
      constructor
      · intro h
        obtain rfl := (Prod.mk.inj (Except.ok.inj h)).2
        exact ⟨by omega, rfl, rfl⟩
      · rintro ⟨-, hsends, hchannel⟩
        rw [hchannel]
        simp only [Nat.add_right_cancel hsends]

/-- **What takes place between the Collector and a silent peer**: the frames that
are received are the next ones on the wire. -/
theorem Performs.of_silent {tail : List UInt8} (htail : BreaksOff tail) {channel channel' : FramedSocket ℕ}
    {events : List Event} (h : Performs silent channel events channel') {frames : List Frame}
    (hready : ReadyBefore tail channel frames) :
    Sendable events ∧ channel.peer = channel'.peer + told events ∧
      ∃ rest, frames = heard events ++ rest ∧ ReadyBefore tail channel' rest := by
  induction h generalizing frames with
  | nil channel => exact ⟨by simp [Sendable], rfl, frames, rfl, hready⟩
  | @received channel channel₁ channel₂ frame events first _ ih =>
    cases frames with
    | nil =>
      obtain ⟨last, n, hlast, hn, rfl⟩ := htail
      obtain ⟨e, he⟩ := receive_short hlast hn hready
      rw [he] at first
      cases first
    | cons head frames =>
      obtain ⟨pieces, pending, hreceive, hready'⟩ := receive_readyBefore hready
      rw [hreceive] at first
      obtain ⟨rfl, rfl⟩ := Prod.mk.inj (Except.ok.inj first)
      obtain ⟨hsend, hpeer, rest, rfl, hrest⟩ := ih hready'
      refine ⟨fun kind payload hmem => ?_, hpeer, rest, rfl, hrest⟩
      rcases List.mem_cons.1 hmem with hmem | hmem
      · cases hmem
      · exact hsend kind payload hmem
  | @sent channel channel₁ channel₂ kind payload events first _ ih =>
    obtain ⟨hfits, hpeer₁, hchannel⟩ := send_silent.1 first
    have hready' : ReadyBefore tail channel₁ frames := by
      rw [hchannel]
      exact hready
    obtain ⟨hsend, hpeer, rest, hrest⟩ := ih hready'
    refine ⟨fun kind' payload' hmem => ?_, by rw [told]; omega, rest, hrest⟩
    rcases List.mem_cons.1 hmem with hmem | hmem
    · cases hmem
      exact hfits
    · exact hsend kind' payload' hmem

/-- **And every such conversation takes place** while the connection lasts. -/
theorem performs_silent {tail : List UInt8} {events : List Event} (hsend : Sendable events)
    {channel : FramedSocket ℕ} (hpeer : told events ≤ channel.peer) {rest : List Frame}
    (hready : ReadyBefore tail channel (heard events ++ rest)) :
    ∃ channel', Performs silent channel events channel' := by
  induction events generalizing channel with
  | nil => exact ⟨channel, .nil channel⟩
  | cons event events ih =>
    have hsend' : Sendable events := fun kind payload hmem => hsend kind payload (List.mem_cons_of_mem event hmem)
    cases event with
    | received frame =>
      obtain ⟨pieces, pending, hreceive, hready'⟩ := receive_readyBefore hready
      obtain ⟨channel', hperf⟩ := @ih hsend' { channel with incoming := pieces, pending := pending } hpeer hready'
      exact ⟨channel', .received hreceive hperf⟩
    | sent kind payload =>
      rw [told] at hpeer
      have hrun : send silent kind payload channel = .ok ((), { channel with peer := channel.peer - 1 }) :=
        send_silent.2 ⟨hsend kind payload List.mem_cons_self, by dsimp only; omega, rfl⟩
      obtain ⟨channel', hperf⟩ := ih hsend' (show told events ≤ channel.peer - 1 by omega)
        (show ReadyBefore tail { channel with peer := channel.peer - 1 } (heard events ++ rest) from hready)
      exact ⟨channel', .sent hrun hperf⟩

/-- **Enough rounds.**  A routine that may receive more frames than the peer has
sent does not run out of rounds. -/
theorem Speaks.ne_diverged {rounds : ℕ} {routine : Framed ℕ α} {language : List Event → α → Prop}
    (h : Speaks silent rounds routine language) {tail : List UInt8} (htail : BreaksOff tail) {channel : FramedSocket ℕ}
    {frames : List Frame} (hready : ReadyBefore tail channel frames) (hrounds : frames.length < rounds) :
    routine channel ≠ .error .diverged := by
  intro hdiv
  obtain ⟨events, channel', hlen, hperf⟩ := h.diverges channel hdiv
  obtain ⟨-, -, rest, rfl, -⟩ := hperf.of_silent htail hready
  rw [List.length_append] at hrounds
  omega

/-! ### A peer that answers -/

/-- The process answers a frame with some others. -/
def Peer.Answers (peer : Peer π) (state : π) (frame : Frame) (frames : List Frame) (state' : π) : Prop :=
  ∃ pieces, peer.respond state frame.bytes = some (state', pieces) ∧ Carries pieces frames

/-- The process with a record of what it was sent. -/
def recording (peer : Peer π) : Peer (π × List (List UInt8)) where
  respond state wire := (peer.respond state.1 wire).map fun answer => ((answer.1, state.2 ++ [wire]), answer.2)

/-- A socket to such a process. -/
abbrev RecordedSocket (π : Type) : Type := FramedSocket (π × List (List UInt8))

/-- The bytes of the frames that were sent. -/
def said : List Event → List (List UInt8)
  | [] => []
  | .received _ :: events => said events
  | .sent kind payload :: events => (Frame.mk kind payload).bytes :: said events

/-- Receipts say nothing. -/
@[simp] theorem said_receipts (frames : List Frame) : said (receipts frames) = [] := by
  induction frames with
  | nil => rfl
  | cons frame frames ih => exact ih

/-- What is said, part by part. -/
theorem said_append (xs ys : List Event) : said (xs ++ ys) = said xs ++ said ys := by
  induction xs with
  | nil => rfl
  | cons event xs ih =>
    cases event with
    | received frame => exact ih
    | sent kind payload => exact congrArg ((Frame.mk kind payload).bytes :: ·) ih

/-- What is there is received. -/
theorem performs_receipts {peer : Peer π} (frames : List Frame) {rest : List Frame} {channel : FramedSocket π}
    (hready : Ready channel (frames ++ rest)) :
    ∃ channel', Performs peer channel (receipts frames) channel' ∧ Ready channel' rest ∧
      channel'.peer = channel.peer := by
  induction frames generalizing channel with
  | nil => exact ⟨channel, .nil channel, hready, rfl⟩
  | cons frame frames ih =>
    obtain ⟨pieces, pending, hreceive, hready'⟩ := receive_ready hready
    obtain ⟨channel', hperf, hrest, hpeer⟩ := ih hready'
    exact ⟨channel', .received hreceive hperf, hrest, hpeer⟩

/-- **A question and its answer.** -/
theorem Peer.Answers.performs {peer : Peer π} {channel : RecordedSocket π} {kind : FrameKind}
    {payload : List UInt8} {frames : List Frame} {state : π}
    (h : peer.Answers channel.peer.1 ⟨kind, payload⟩ frames state) (hfits : payload.length ≤ MAX_PAYLOAD)
    (hready : Ready channel []) :
    ∃ channel', Performs (recording peer) channel (.sent kind payload :: receipts frames) channel' ∧ Ready channel' [] ∧
      channel'.peer = (state, channel.peer.2 ++ [(Frame.mk kind payload).bytes]) := by
  obtain ⟨pieces, hrespond, hcarries⟩ := h
  let asked : RecordedSocket π := { channel with
    peer := (state, channel.peer.2 ++ [(Frame.mk kind payload).bytes])
    incoming := channel.incoming ++ pieces }
  have hsend : send (recording peer) kind payload channel = .ok ((), asked) := by
    rw [send, if_neg (Nat.not_lt.2 hfits)]
    have hrecorded : (recording peer).respond channel.peer (packHeader kind payload.length ++ payload) =
        some ((state, channel.peer.2 ++ [(Frame.mk kind payload).bytes]), pieces) :=
      congrArg (Option.map _) hrespond
    rw [sendall, hrecorded]
  have hasked : Ready asked (frames ++ []) := by
    rw [List.append_nil]
    exact hready.arrive hcarries _
  obtain ⟨channel', hperf, hrest, hpeer⟩ := performs_receipts frames hasked
  exact ⟨channel', .sent hsend hperf, hrest, hpeer⟩

/-- **What the process says** while it is sent some bytes, one `sendall` after another. -/
inductive Peer.Says (peer : Peer π) : π → List (List UInt8) → List Frame → π → Prop
  | nil (state) : Says peer state [] [] state
  | cons {state state' state'' wire wires pieces xs ys} (first : peer.respond state wire = some (state', pieces))
      (carried : Carries pieces xs) (rest : Says peer state' wires ys state'') :
      Says peer state (wire :: wires) (xs ++ ys) state''

/-- **Inversion of a `send`** to a process with a record. -/
theorem send_recording {peer : Peer π} {kind : FrameKind} {payload : List UInt8} {channel channel' : RecordedSocket π}
    (h : send (recording peer) kind payload channel = .ok ((), channel')) :
    ∃ state pieces, peer.respond channel.peer.1 (Frame.mk kind payload).bytes = some (state, pieces) ∧
      channel' = { channel with
        peer := (state, channel.peer.2 ++ [(Frame.mk kind payload).bytes])
        incoming := channel.incoming ++ pieces } := by
  rw [send] at h
  split_ifs at h
  · cases h
  · have hrecorded : (recording peer).respond channel.peer (packHeader kind payload.length ++ payload) =
        (peer.respond channel.peer.1 (Frame.mk kind payload).bytes).map fun answer =>
          ((answer.1, channel.peer.2 ++ [(Frame.mk kind payload).bytes]), answer.2) := rfl
    rw [sendall, hrecorded] at h
    cases hrespond : peer.respond channel.peer.1 (Frame.mk kind payload).bytes with
    | none =>
      rw [hrespond] at h
      cases h
    | some answer =>
      rw [hrespond] at h
      cases h
      exact ⟨answer.1, answer.2, rfl, rfl⟩

/-- **What is heard is what was said**, up to the frames that are still to be received. -/
theorem Performs.heard {peer : Peer π} {channel channel' : RecordedSocket π} {events : List Event}
    (h : Performs (recording peer) channel events channel') {xs frames : List Frame} {state : π}
    (hspoken : peer.Says channel.peer.1 (said events) frames state) (hready : Ready channel xs) :
    channel'.peer.1 = state ∧ ∃ rest, xs ++ frames = Protocol.heard events ++ rest := by
  induction h generalizing xs frames with
  | nil channel =>
    cases hspoken
    exact ⟨rfl, xs, List.append_nil xs⟩
  | @received channel channel₁ channel₂ frame events first _ ih =>
    cases xs with
    | nil =>
      obtain ⟨last, n, hlast, hn, hnil⟩ := breaksOff_nil
      obtain ⟨e, he⟩ := receive_short hlast hn (hnil ▸ readyBefore_nil.2 hready)
      rw [he] at first
      cases first
    | cons head xs =>
      obtain ⟨pieces, pending, hreceive, hready'⟩ := receive_ready hready
      rw [hreceive] at first
      obtain ⟨rfl, rfl⟩ := Prod.mk.inj (Except.ok.inj first)
      obtain ⟨hstate, rest, hrest⟩ := ih hspoken hready'
      exact ⟨hstate, rest, congrArg (head :: ·) hrest⟩
  | @sent channel channel₁ channel₂ kind payload events first _ ih =>
    obtain ⟨state₁, pieces, hrespond, rfl⟩ := send_recording first
    cases hspoken with
    | cons first' carried later =>
      rw [hrespond] at first'
      cases first'
      obtain ⟨hstate, rest, hrest⟩ := ih later (hready.arrive carried _)
      exact ⟨hstate, rest, by rwa [List.append_assoc] at hrest⟩

end Protocol
end Pydump
