/-
# The Agent's buffers

What a receive takes from the stream is a beginning of `arrivingBytes`, the bytes that come
before the stream ends.  `receiveLoop_cases` says by their number how a receive ends;
from it `receive_frame` overflows exactly when the header is accepted and more bytes
follow than the caller's array holds, up to the length in the header
(`receiveFrame_cases`).

`handle_requests` passes an array of `MAX_PAYLOAD` bytes, which no accepted length
exceeds.  `session_main` passes the five bytes of its options and looks at the length
afterwards, so a session stays within its buffers exactly when the handshake does
(`session_within_buffers_iff`).
-/

import Pydump.Agent.Receive
import Pydump.Agent.SendSpec

namespace Pydump
namespace Agent

open Protocol (FrameKind)
open ExceptLoop (Avoids run_bind_ok run_bind_error run_bind_eq_error)

variable {receives : List ReceiveOutcome} {capacity missing : ℕ} {stored : List UInt8} {connection : Connection}

/-! ### `receive_all` -/

/-- **How a receive ends**: it stores behind the array, it has all it asked for, or the
stream ends before. -/
theorem receiveLoop_cases (hstored : stored.length ≤ capacity) :
    (capacity < stored.length + min missing (arrivingBytes receives).length ∧
        receiveLoop capacity receives missing stored = .error .overflow) ∨
      (stored.length + missing ≤ capacity ∧ missing ≤ (arrivingBytes receives).length ∧ ∃ rest,
        receiveLoop capacity receives missing stored =
          .ok (some (stored ++ (arrivingBytes receives).take missing), rest) ∧
          arrivingBytes rest = (arrivingBytes receives).drop missing) ∨
      (stored.length + (arrivingBytes receives).length ≤ capacity ∧ (arrivingBytes receives).length < missing ∧ ∃ rest,
        receiveLoop capacity receives missing stored = .ok (none, rest)) := by
  fun_induction receiveLoop capacity receives missing stored with
  | case1 receives stored => exact .inr (.inl ⟨hstored, by omega, receives, by simp⟩)
  | case2 missing stored => exact .inr (.inr ⟨hstored, by simp [arrivingBytes], [], rfl⟩)
  | case3 receives missing stored ih => exact ih hstored
  | case4 receives missing stored => exact .inr (.inr ⟨hstored, by simp [arrivingBytes], receives, rfl⟩)
  | case5 receives missing stored => exact .inr (.inr ⟨hstored, by simp [arrivingBytes], receives, rfl⟩)
  | case6 bytes receives missing stored hne hover =>
    left
    rw [List.length_take] at hover
    simp only [arrivingBytes, if_neg hne, List.length_append, and_true]
    omega
  | case7 bytes receives missing stored hne hroom hshort ih =>
    rw [List.length_take] at hroom
    have hnext : (stored ++ bytes).length ≤ capacity := by
      rw [List.length_append]
      omega
    have harriving : arrivingBytes (.received bytes :: receives) = bytes ++ arrivingBytes receives := by
      simp [arrivingBytes, hne]
    rw [harriving]
    simp only [List.length_append] at ih ⊢
    rcases ih (by simpa using hnext) with ⟨hover, hrun⟩ | ⟨hfits, henough, rest, hrun, hrest⟩ |
      ⟨hfits, hless, rest, hrun⟩
    · exact .inl ⟨by omega, hrun⟩
    · refine .inr (.inl ⟨by omega, by omega, rest, ?_, ?_⟩)
      · rw [hrun, List.append_assoc, List.take_append, List.take_of_length_le (by omega : bytes.length ≤ missing + 1)]
      · rw [hrest, List.drop_append, List.drop_of_length_le (by omega : bytes.length ≤ missing + 1), List.nil_append]
    · exact .inr (.inr ⟨by omega, by omega, rest, hrun⟩)
  | case8 bytes receives missing stored hne hroom hlong =>
    rw [List.length_take] at hroom
    have harriving : arrivingBytes (.received bytes :: receives) = bytes ++ arrivingBytes receives := by
      simp [arrivingBytes, hne]
    rw [harriving]
    have hrest : arrivingBytes (if bytes.length = missing + 1 then receives
        else .received (bytes.drop (missing + 1)) :: receives) =
          (bytes ++ arrivingBytes receives).drop (missing + 1) := by
      rw [List.drop_append_of_le_length (by omega)]
      split_ifs with hexact
      · rw [List.drop_of_length_le (by omega), List.nil_append]
      · have hleft : bytes.drop (missing + 1) ≠ [] := by
          rw [← List.length_pos_iff_ne_nil, List.length_drop]
          omega
        simp only [arrivingBytes, if_neg hleft]
    refine .inr (.inl ⟨by omega, by rw [List.length_append]; omega, _, ?_, hrest⟩)
    rw [List.take_append_of_le_length (by omega)]

/-- `receive_all` where everything arrives and has room. -/
theorem receiveAll_ok {length : ℕ} (harrives : length ≤ (arrivingBytes connection.receives).length)
    (hroom : length ≤ capacity) : ∃ rest,
      receiveAll capacity length connection =
        .ok (some ((arrivingBytes connection.receives).take length), { connection with receives := rest }) ∧
      arrivingBytes rest = (arrivingBytes connection.receives).drop length := by
  unfold receiveAll
  rcases @receiveLoop_cases connection.receives capacity length [] (Nat.zero_le _) with
    ⟨hover, -⟩ | ⟨-, -, rest, hrun, hrest⟩ | ⟨-, hless, -⟩
  · rw [List.length_nil] at hover
    omega
  · exact ⟨rest, by rw [hrun]; rfl, hrest⟩
  · omega

/-- A stream that ends too early gives no bytes. -/
theorem receiveAll_short {length : ℕ} (hshort : (arrivingBytes connection.receives).length < length)
    (hroom : (arrivingBytes connection.receives).length ≤ capacity) : ∃ rest,
      receiveAll capacity length connection = .ok (none, { connection with receives := rest }) := by
  unfold receiveAll
  rcases @receiveLoop_cases connection.receives capacity length [] (Nat.zero_le _) with
    ⟨hover, -⟩ | ⟨-, henough, -⟩ | ⟨-, -, rest, hrun⟩
  · rw [List.length_nil] at hover
    omega
  · omega
  · exact ⟨rest, by rw [hrun]⟩

/-- A stream longer than the buffer overflows it. -/
theorem receiveAll_overflow {length : ℕ} (hlength : capacity < length)
    (harrives : capacity < (arrivingBytes connection.receives).length) :
    receiveAll capacity length connection = .error .overflow := by
  unfold receiveAll
  rcases @receiveLoop_cases connection.receives capacity length [] (Nat.zero_le _) with
    ⟨-, hrun⟩ | ⟨hfits, -⟩ | ⟨hfits, -⟩
  · rw [hrun]
  · rw [List.length_nil] at hfits
    omega
  · rw [List.length_nil] at hfits
    omega

/-! ### `receive_frame` -/

/-- A frame arrives whose header is accepted and whose payload goes on behind the end of
the array. -/
def Overfull (capacity : ℕ) (receives : List ReceiveOutcome) : Prop :=
  ∃ kind length, acceptHeader ((arrivingBytes receives).take FRAME_HEADER_SIZE) = some (kind, length) ∧
    capacity < length ∧ FRAME_HEADER_SIZE + capacity < (arrivingBytes receives).length

/-- A header that is accepted announces no more than the limit. -/
theorem length_le_of_acceptHeader {header : List UInt8} {kind : UInt8} {length : ℕ}
    (h : acceptHeader header = some (kind, length)) : length ≤ MAX_PAYLOAD := by
  unfold acceptHeader at h
  dsimp only at h
  split_ifs at h with hrefused
  simp only [Option.some.injEq, Prod.mk.injEq] at h
  omega

/-- **How `receive_frame` ends**: it fails, it stores behind the array, or it returns a
frame with all of its payload and has taken bytes from the stream. -/
theorem receiveFrame_cases (capacity : ℕ) (connection : Connection) :
    (¬Overfull capacity connection.receives ∧
      ∃ connection', receiveFrame capacity connection = .ok (none, connection')) ∨
      (Overfull capacity connection.receives ∧ receiveFrame capacity connection = .error .overflow) ∨
      (¬Overfull capacity connection.receives ∧ ∃ frame rest,
        receiveFrame capacity connection = .ok (some frame, { connection with receives := rest }) ∧
          frame.payload.length = frame.length ∧
          (arrivingBytes rest).length < (arrivingBytes connection.receives).length) := by
  generalize hbytes : arrivingBytes connection.receives = bytes
  by_cases hheader : FRAME_HEADER_SIZE ≤ bytes.length
  · obtain ⟨rest, hrun, hrest⟩ := receiveAll_ok (hbytes ▸ hheader) (le_refl FRAME_HEADER_SIZE)
    rw [hbytes] at hrun hrest
    have hleft : (arrivingBytes rest).length = bytes.length - FRAME_HEADER_SIZE := by rw [hrest, List.length_drop]
    unfold receiveFrame
    rw [run_bind_ok hrun]
    dsimp only
    cases haccept : acceptHeader (bytes.take FRAME_HEADER_SIZE) with
    | none =>
      refine .inl ⟨?_, _, rfl⟩
      rintro ⟨kind, length, h, -⟩
      rw [hbytes, haccept] at h
      simp at h
    | some p =>
      obtain ⟨kind, length⟩ := p
      have hiff : Overfull capacity connection.receives ↔
          capacity < length ∧ FRAME_HEADER_SIZE + capacity < bytes.length := by
        constructor
        · rintro ⟨kind', length', h, hover⟩
          rw [hbytes, haccept] at h
          simp only [Option.some.injEq, Prod.mk.injEq] at h
          rw [← h.2, hbytes] at hover
          exact hover
        · exact fun hover => ⟨kind, length, hbytes ▸ haccept, hbytes ▸ hover⟩
      rw [hiff]
      dsimp only
      split_ifs with hzero
      · subst hzero
        refine .inr (.inr ⟨by omega, _, rest, rfl, rfl, ?_⟩)
        unfold FRAME_HEADER_SIZE at hheader hleft
        omega
      · by_cases hover : capacity < length ∧ FRAME_HEADER_SIZE + capacity < bytes.length
        · have harrives : capacity < (arrivingBytes rest).length := by omega
          have hpayload := @receiveAll_overflow _ { connection with receives := rest } _ hover.1 harrives
          exact .inr (.inl ⟨hover, run_bind_error hpayload⟩)
        · rcases Nat.lt_or_ge (arrivingBytes rest).length length with hshort | henough
          · have hroom : (arrivingBytes rest).length ≤ capacity := by omega
            obtain ⟨rest', hpayload⟩ := @receiveAll_short _ { connection with receives := rest } _ hshort hroom
            rw [run_bind_ok hpayload]
            exact .inl ⟨hover, _, rfl⟩
          · have hroom : length ≤ capacity := by omega
            obtain ⟨rest', hpayload, hdrop⟩ := @receiveAll_ok _ { connection with receives := rest } _ henough hroom
            have hrest' : arrivingBytes rest' = (arrivingBytes rest).drop length := hdrop
            rw [run_bind_ok hpayload]
            have hlen : ((arrivingBytes rest).take length).length = length := by
              rw [List.length_take]
              omega
            refine .inr (.inr ⟨hover, _, rest', rfl, hlen, ?_⟩)
            rw [hrest', List.length_drop]
            omega
  · -- the header does not arrive
    obtain ⟨rest, hrun⟩ := @receiveAll_short FRAME_HEADER_SIZE connection FRAME_HEADER_SIZE
      (by rw [hbytes]; omega) (by rw [hbytes]; omega)
    unfold receiveFrame
    rw [run_bind_ok hrun]
    refine .inl ⟨?_, _, rfl⟩
    rintro ⟨kind, length, -, -, h⟩
    rw [hbytes] at h
    omega

/-- An array that holds every accepted payload is never overrun. -/
theorem not_overfull (receives : List ReceiveOutcome) : ¬Overfull MAX_PAYLOAD receives := by
  rintro ⟨kind, length, haccept, hlength, -⟩
  have hle := length_le_of_acceptHeader haccept
  omega

/-! ### `handle_requests` -/

/-- The session does not leave its buffers and comes to an end. -/
def Within {α : Type} (run : Except Fault α) : Prop :=
  run ≠ .error .overflow ∧ run ≠ .error .overread ∧ run ≠ .error .diverged

/-- A result is within the buffers. -/
theorem within_ok {α : Type} (a : α) : Within (.ok a) := by
  simp [Within]

/-- A sequence stays within the buffers if its parts do. -/
theorem Within.bind {α β : Type} {part : Duplex α} {next : α → Duplex β} {connection : Connection}
    (h : Within (part connection)) (hnext : ∀ a connection', Within (next a connection')) :
    Within ((part >>= next) connection) := by
  cases hrun : part connection with
  | error fault =>
    rw [run_bind_error hrun]
    simpa [Within, hrun] using h
  | ok r =>
    rw [run_bind_ok hrun]
    exact hnext r.1 r.2

/-- A part of the session that only sends: the stream stays as it is, and the only faults
are those of the sending half. -/
def OnlySends {α : Type} (part : Duplex α) : Prop :=
  ∀ connection, (∃ fault, part connection = .error (.send fault)) ∨
    ∃ a session, part connection = .ok (a, { connection with session := session })

/-- The sending half only sends. -/
theorem onlySends_sending {α : Type} (routine : Routine α) : OnlySends (sending routine) := by
  intro connection
  unfold sending
  split
  · exact .inr ⟨_, _, rfl⟩
  · exact .inl ⟨_, rfl⟩

/-- What only sends stays within the buffers. -/
theorem OnlySends.within {α : Type} {part : Duplex α} (h : OnlySends part) (connection : Connection) :
    Within (part connection) := by
  rcases h connection with ⟨fault, hrun⟩ | ⟨a, session, hrun⟩
  · simp [Within, hrun]
  · simp [Within, hrun]

/-- Behind a part that only sends. -/
theorem OnlySends.within_bind {α β : Type} {part : Duplex α} (h : OnlySends part) {next : α → Duplex β}
    {connection : Connection} (hnext : ∀ a session, Within (next a { connection with session := session })) :
    Within ((part >>= next) connection) := by
  rcases h connection with ⟨fault, hrun⟩ | ⟨a, session, hrun⟩
  · rw [run_bind_error hrun]
    simp [Within]
  · rw [run_bind_ok hrun]
    exact hnext a session

/-- The requests of a frame are within its payload. -/
theorem offset_le {length offset : ℕ} (hlength : length % 8 = 0) (h : offset ∈ requestOffsets length) :
    offset + 8 ≤ length := by
  unfold requestOffsets at h
  obtain ⟨i, hi, rfl⟩ := List.mem_map.1 h
  rw [List.mem_range] at hi
  omega

/-- Answers to requests within the payload only send. -/
theorem onlySends_sendRequested (target : Target) {payload : List UInt8} {offsets : List ℕ}
    (h : ∀ offset ∈ offsets, offset + 8 ≤ payload.length) : OnlySends (sendRequested target payload offsets) := by
  induction offsets with
  | nil => exact fun connection => .inr ⟨.ok, connection.session, rfl⟩
  | cons offset offsets ih =>
    intro connection
    have hload : loadAddress payload offset connection =
        .ok (BigEndian.decode ((payload.drop offset).take 8), connection) := by
      unfold loadAddress
      rw [if_pos (h offset List.mem_cons_self)]
      rfl
    unfold sendRequested
    rw [run_bind_ok hload]
    rcases onlySends_sending (sendObject (target.objectAt _)) connection with ⟨fault, hrun⟩ | ⟨status, session, hrun⟩
    · exact .inl ⟨fault, run_bind_error hrun⟩
    · rw [run_bind_ok hrun]
      cases status with
      | failed => exact .inr ⟨_, _, rfl⟩
      | ok => exact ih (fun o ho => h o (List.mem_cons_of_mem offset ho)) { connection with session := session }

/-- **A run of the request loop**: the array holds every accepted payload, the offsets lie
within what was received, and every round takes bytes from the stream. -/
theorem within_handleFrames (target : Target) {rounds : ℕ} {connection : Connection}
    (hrounds : (arrivingBytes connection.receives).length < rounds) :
    Within (handleFrames target MAX_PAYLOAD rounds connection) := by
  induction rounds generalizing connection with
  | zero => omega
  | succ rounds ih =>
    unfold handleFrames
    rcases receiveFrame_cases MAX_PAYLOAD connection with ⟨-, _, hrun⟩ | ⟨hover, -⟩ |
      ⟨-, frame, rest, hrun, hlength, hless⟩
    · rw [run_bind_ok hrun]
      exact within_ok _
    · exact absurd hover (not_overfull _)
    · rw [run_bind_ok hrun]
      dsimp only
      split_ifs with hfinish hrefused
      · exact (onlySends_sending _).within _
      · exact (onlySends_sending _).within_bind fun _ _ => within_ok _
      · have hoffsets : ∀ offset ∈ requestOffsets frame.length, offset + 8 ≤ frame.payload.length := by
          intro offset hoffset
          rw [hlength]
          exact offset_le (by by_contra hrest; exact hrefused (.inr hrest)) hoffset
        refine (onlySends_sendRequested target hoffsets).within_bind fun status session => ?_
        cases status with
        | failed => exact within_ok _
        | ok =>
          refine (onlySends_sending _).within_bind fun status session => ?_
          cases status with
          | failed => exact within_ok _
          | ok => exact ih (show (arrivingBytes rest).length < rounds by omega)

/-- `handle_requests` stays within its buffer. -/
theorem within_handleRequests (target : Target) (connection : Connection) :
    Within (handleRequests target MAX_PAYLOAD connection) :=
  @within_handleFrames target _ ⟨{ connection.session with batch := .new }, connection.receives⟩ (Nat.lt_succ_self _)

/-! ### `session_main` -/

/-- The array of the requests is as long as every accepted payload. -/
theorem within_serve (target : Target) (connection : Connection) : Within (serve target connection) := by
  have hmalloc : sending (malloc MAX_PAYLOAD) connection =
      .ok (if connection.session.mallocs.headD true then some (List.replicate MAX_PAYLOAD 0) else none,
        { connection with session := { connection.session with mallocs := connection.session.mallocs.tail } }) := by
    rw [sending, malloc_eq]
  unfold serve
  rw [run_bind_ok hmalloc]
  split_ifs with hgiven
  · refine (onlySends_sending _).within_bind fun status session => ?_
    cases status with
    | failed => exact within_ok _
    | ok =>
      dsimp only
      rw [List.length_replicate]
      exact within_handleRequests target _
  · exact within_ok _

/-- The end of `session_main`. -/
theorem within_result (accepted : Bool) (target : Target) (connection : Connection) :
    Within ((do
      let result ← if accepted then serve target else pure .failed
      match result with
      | .ok => pure ()
      | .failed => do
        let _ ← sending (sendError "native agent session failed or timed out")
        pure () : Duplex Unit) connection) := by
  have hend : ∀ (result : Status) connection', Within ((match result with
      | .ok => pure ()
      | .failed => do
        let _ ← sending (sendError "native agent session failed or timed out")
        pure () : Duplex Unit) connection') := by
    rintro (_ | _) connection'
    · exact within_ok _
    · exact (onlySends_sending _).within_bind fun _ _ => within_ok _
  cases accepted with
  | true => exact (within_serve target connection).bind hend
  | false => exact @Within.bind _ _ (pure .failed) _ _ (within_ok _) hend

/-- `send_hello` returns 0. -/
def HelloSent (target : Target) (session : Session) : Prop := ∃ session', sendHello target session = .ok (.ok, session')

/-- **The handshake** overruns the options exactly when HELLO went out and a frame with
more than five bytes of payload comes back. -/
theorem handshake_cases (target : Target) (connection : Connection) :
    (HelloSent target connection.session ∧ Overfull OPTIONS_SIZE connection.receives ∧
        handshake target connection = .error .overflow) ∨
      (¬(HelloSent target connection.session ∧ Overfull OPTIONS_SIZE connection.receives) ∧
        ((∃ fault, handshake target connection = .error (.send fault)) ∨
          ∃ accepted connection', handshake target connection = .ok (accepted, connection'))) := by
  unfold handshake
  cases hrun : sendHello target connection.session with
  | error fault =>
    right
    refine ⟨?_, .inl ⟨fault, run_bind_error (by rw [sending, hrun])⟩⟩
    rintro ⟨⟨session', hsent⟩, -⟩
    simp [hrun] at hsent
  | ok r =>
    obtain ⟨status, session⟩ := r
    have hsending : sending (sendHello target) connection = .ok (status, { connection with session := session }) := by
      rw [sending, hrun]
    rw [run_bind_ok hsending]
    cases status with
    | failed =>
      refine .inr ⟨?_, .inr ⟨false, _, rfl⟩⟩
      rintro ⟨⟨session', hsent⟩, -⟩
      simp [hrun] at hsent
    | ok =>
      have hsent : HelloSent target connection.session := ⟨session, hrun⟩
      rcases receiveFrame_cases OPTIONS_SIZE { connection with session := session } with
        ⟨hnot, _, hframe⟩ | ⟨hover, hframe⟩ | ⟨hnot, frame, rest, hframe, -⟩
      · dsimp only
        rw [run_bind_ok hframe]
        exact .inr ⟨fun h => hnot h.2, .inr ⟨_, _, rfl⟩⟩
      · exact .inl ⟨hsent, hover, run_bind_error hframe⟩
      · dsimp only
        rw [run_bind_ok hframe]
        exact .inr ⟨fun h => hnot h.2, .inr ⟨_, _, rfl⟩⟩

/-- **The Agent's buffers.**  Every session comes to an end, the requests are read within
what their frame brought, and no receive stores behind its array, unless HELLO went out
and the answer has an accepted header with more than the five bytes of the options, of
which more than five arrive. -/
theorem session_within_buffers_iff (target : Target) (connection : Connection) :
    sessionMain target connection ≠ .error .diverged ∧ sessionMain target connection ≠ .error .overread ∧
      (sessionMain target connection ≠ .error .overflow ↔
        ¬(HelloSent target connection.session ∧ Overfull OPTIONS_SIZE connection.receives)) := by
  unfold sessionMain
  rcases handshake_cases target connection with ⟨hsent, hover, hrun⟩ |
    ⟨hnot, ⟨fault, hrun⟩ | ⟨accepted, connection', hrun⟩⟩
  · rw [run_bind_error hrun]
    exact ⟨by simp, by simp, by simp, fun h => absurd ⟨hsent, hover⟩ h⟩
  · rw [run_bind_error hrun]
    exact ⟨by simp, by simp, fun _ => hnot, by simp⟩
  · rw [run_bind_ok hrun]
    obtain ⟨hoverflow, hoverread, hdiverged⟩ := within_result accepted target connection'
    exact ⟨hdiverged, hoverread, fun _ => hnot, fun _ => hoverflow⟩

/-- `PYDP`, version 2, `HELLO_ACK`, and a payload of six bytes. -/
def longOptions : List ReceiveOutcome :=
  [.received [0x50, 0x59, 0x44, 0x50, 2, 2, 0, 0, 0, 0, 0, 6], .received [0, 0, 0, 0, 1, 7]]

/-- A Python 3.12 without objects, and a Collector that takes all that is sent. -/
def emptyTarget : Target where
  pythonMajor := 3
  pythonMinor := 12
  nonce := List.replicate 16 0
  wellKnown := List.replicate 13 0
  gcObjects := []
  objectAt _ := ⟨0, 0, 0, [], .none, [], [], [], by decide, by decide, by decide, by simp, by simp, by simp⟩

/-- Options of six bytes are stored in the array of five. -/
theorem options_overflow : sessionMain emptyTarget ⟨⟨[], [], [], .new⟩, longOptions⟩ = .error .overflow := by
  rfl

end Agent
end Pydump
