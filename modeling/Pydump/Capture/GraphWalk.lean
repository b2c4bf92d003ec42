/-
# The walk over a graph

An Agent is honest about a graph where it answers every request with the objects of
the graph that it is asked for, in the order in which they are asked for.  The frames
may be packed and cut in any way, and what the Agent says beyond the graph, names and
sizes and previews, is its own affair.

The walk ends, as it asks for no address twice: `exists_serves` has an induction over
searches inside a finite set.  What it has found is then exactly what can be reached.
-/

import Pydump.Capture.ObjectGraph
import Pydump.Capture.SessionRuns

namespace Pydump
namespace Capture

open Artifact (ObjectFits contentAddresses)
open ExceptLoop (run_bind_ok run_bind_error run_lift_bind run_lift_error)
open Protocol

variable {π : Type}

/-! ### Honest Agents -/

/-- **An honest Agent**, with the states in which it waits for the answer to its `HELLO`
and those in which it serves requests. -/
structure ObjectGraph.Honest (graph : ObjectGraph) (opening : Opening) (peer : Peer π) (waiting serving : π → Prop) :
    Prop where
  acknowledge : ∀ state options, waiting state → ∃ state', serving state' ∧ peer.Answers state ⟨.helloAck, options⟩
    (⟨.wellKnown, opening.wellKnownPayload⟩ :: opening.rootFrames) state'
  answer : ∀ state batch, serving state → (∀ a ∈ batch, a ∈ graph.nodes) → 8 * batch.length ≤ MAX_PAYLOAD →
    ∃ (turn : Turn) (state' : π), serving state' ∧ turn.objects.map HeapObject.address = batch ∧
      (∀ obj ∈ turn.objects, graph.Describes obj) ∧
        peer.Answers state ⟨.requestObjects, packAddresses batch⟩ turn.frames state'
  complete : ∀ state, serving state → ∃ last state', peer.Answers state ⟨.finish, []⟩ [⟨.complete, last⟩] state'

/-! ### Serving -/

/-- No object of a turn has attributes. -/
theorem Turn.attributes_eq {turn : Turn} : ∀ obj ∈ turn.objects, obj.attributes = [] := by
  intro obj hobj
  obtain ⟨report, -, rfl⟩ := List.mem_map.1 hobj
  exact report.attributes_eq

/-- An Agent goes through some turns with the Collector. -/
structure Serves (graph : ObjectGraph) (peer : Peer π) (serving : π → Prop) (channel : RecordedSocket π)
    (turns : List Turn) (channel' : RecordedSocket π) : Prop where
  described : ∀ obj ∈ turns.flatMap Turn.objects, graph.Describes obj
  requests : ∀ turn ∈ turns, 8 * turn.objects.length ≤ MAX_PAYLOAD
  performs : Performs (recording peer) channel (turns.flatMap Turn.events) channel'
  ready : Ready channel' []
  serving : serving channel'.peer.1
  log : channel'.peer.2 = channel.peer.2 ++ said (turns.flatMap Turn.events)

variable {graph : ObjectGraph} {opening : Opening} {peer : Peer π} {waiting serving : π → Prop}

/-- No turn serves nothing. -/
theorem Serves.nil {channel : RecordedSocket π} (hserving : serving channel.peer.1)
    (hready : Ready channel []) : Serves graph peer serving channel [] channel where
  described := by simp
  requests := by simp
  performs := .nil channel
  ready := hready
  serving := hserving
  log := (List.append_nil _).symm

/-- One turn before others. -/
theorem Serves.cons {channel channel₁ channel₂ : RecordedSocket π} {turn : Turn} {turns : List Turn}
    (h : Serves graph peer serving channel [turn] channel₁) (h' : Serves graph peer serving channel₁ turns channel₂) :
    Serves graph peer serving channel (turn :: turns) channel₂ where
  described := by
    rw [List.flatMap_cons, List.forall_mem_append]
    exact ⟨by simpa using h.described, h'.described⟩
  requests := List.forall_mem_cons.2 ⟨h.requests turn List.mem_cons_self, h'.requests⟩
  performs := by
    have hfirst := h.performs
    rw [List.flatMap_singleton] at hfirst
    rw [List.flatMap_cons]
    exact hfirst.append h'.performs
  ready := h'.ready
  serving := h'.serving
  log := by
    rw [h'.log, h.log, List.flatMap_singleton, List.flatMap_cons, said_append, List.append_assoc]

namespace ObjectGraph.Honest

/-- **One request is answered.** -/
theorem exists_turn (honest : graph.Honest opening peer waiting serving) {channel : RecordedSocket π}
    (hserving : serving channel.peer.1) (hready : Ready channel []) {batch : List ℕ}
    (hbatch : ∀ a ∈ batch, a ∈ graph.nodes) (hfits : 8 * batch.length ≤ MAX_PAYLOAD) :
    ∃ turn channel', turn.objects.map HeapObject.address = batch ∧
      Serves graph peer serving channel [turn] channel' := by
  obtain ⟨turn, state, hserving', rfl, hdescribed, hanswers⟩ := honest.answer _ batch hserving hbatch hfits
  rw [List.length_map] at hfits
  obtain ⟨channel', hperf, hready', hpeer⟩ := hanswers.performs (by rwa [length_packAddresses, List.length_map]) hready
  refine ⟨turn, channel', rfl, ⟨by simpa using hdescribed, by simpa using hfits, ?_, hready', by rwa [hpeer], ?_⟩⟩
  · rw [List.flatMap_singleton]
    exact hperf
  · rw [hpeer, List.flatMap_singleton, Turn.events, said, said_receipts]

/-- **The Agent serves a search to its end.** -/
theorem exists_serves (honest : graph.Honest opening peer waiting serving) (orders : OrderChoice ℕ) {batchSize : ℕ}
    (hone : 1 ≤ batchSize) (hbatch : 8 * batchSize ≤ MAX_PAYLOAD) {frontier : Frontier ℕ} {taken : List ℕ}
    (htracks : frontier.Tracks taken) (hseen : ∀ a ∈ frontier.seen, a ∈ graph.nodes)
    {channel : RecordedSocket π} (hserving : serving channel.peer.1) (hready : Ready channel []) :
    ∃ turns channel', Frontier.Explores HeapObject.address (discovered orders) (batchOf batchSize) (restOf batchSize)
      frontier (turns.map Turn.objects) ∧ Serves graph peer serving channel turns channel' := by
  let Served : Frontier ℕ → Prop := fun f => ∀ channel : RecordedSocket π, serving channel.peer.1 →
    Ready channel [] → ∃ turns channel', Frontier.Explores HeapObject.address (discovered orders) (batchOf batchSize)
      (restOf batchSize) f (turns.map Turn.objects) ∧ Serves graph peer serving channel turns channel'
  have hnonempty : ∀ xs : List ℕ, xs ≠ [] → batchOf batchSize xs ≠ [] := by
    intro xs hxs
    have hlen := List.length_pos_iff.2 hxs
    rw [batchOf, ← List.length_pos_iff, List.length_take, List.length_reverse]
    omega
  suffices h : Served frontier from h channel hserving hready
  refine Frontier.search_induction (perm_batchOf batchSize) hnonempty (fun f hpending channel hserving hready => ?_)
    (fun f hpending hin hlater channel hserving hready => ?_) htracks hseen
  · exact ⟨[], channel, .done hpending, .nil hserving hready⟩
  · have hasked : ∀ a ∈ batchOf batchSize f.pending, a ∈ graph.nodes := fun a ha =>
      hin a (List.mem_reverse.1 (List.mem_of_mem_take ha))
    have hlen : (batchOf batchSize f.pending).length ≤ batchSize := List.length_take_le _ _
    obtain ⟨turn, channel₁, hkeys, hturn⟩ := honest.exists_turn hserving hready hasked (by omega)
    -- what the answer leads to is in the graph
    have hfound : ∀ a ∈ turn.objects.flatMap (discovered orders), a ∈ graph.nodes := by
      intro a ha
      obtain ⟨obj, hobj, ha⟩ := List.mem_flatMap.1 ha
      have hdescribed := hturn.described obj (by simpa using hobj)
      have hnode := hasked obj.address (hkeys ▸ List.mem_map_of_mem hobj)
      obtain ⟨hmentions, hzero⟩ := (hdescribed.mem_discovered (Turn.attributes_eq obj hobj) orders a).1 ha
      exact graph.closed obj.address hnode a hmentions hzero
    obtain ⟨turns, channel₂, hexplores, hturns⟩ := hlater _ hfound channel₁ hturn.serving hturn.ready
    exact ⟨turn :: turns, channel₂, .turn hpending hkeys hexplores, hturn.cons hturns⟩

/-- **A whole session takes place.** -/
theorem exists_session (honest : graph.Honest opening peer waiting serving) (orders : OrderChoice ℕ) {batchSize : ℕ}
    (hone : 1 ≤ batchSize) (hbatch : 8 * batchSize ≤ MAX_PAYLOAD)
    (hstarts : ∀ a ∈ nonzero opening.starts, a ∈ graph.nodes) {channel : RecordedSocket π}
    (hwaiting : waiting channel.peer.1) (hready : Ready channel [⟨.hello, opening.helloPayload⟩])
    {options : List UInt8} (hoptions : options.length ≤ MAX_PAYLOAD) :
    ∃ turns last channel', Frontier.Explores HeapObject.address (discovered orders) (batchOf batchSize)
      (restOf batchSize)
        (opening.session turns last).start (turns.map Turn.objects) ∧
      (∀ obj ∈ (opening.session turns last).objects, graph.Describes obj) ∧
        (∀ turn ∈ turns, 8 * turn.objects.length ≤ MAX_PAYLOAD) ∧
          Performs (recording peer) channel ((opening.session turns last).events options) channel' ∧
            channel'.peer.2 = channel.peer.2 ++ said ((opening.session turns last).events options) := by
  obtain ⟨channel₁, hgreeting, hready₁, hpeer₁⟩ :=
    @performs_receipts _ (recording peer) [⟨.hello, opening.helloPayload⟩] [] channel hready
  rw [← hpeer₁] at hwaiting
  obtain ⟨state, hserving, hacknowledged⟩ := honest.acknowledge _ options hwaiting
  obtain ⟨channel₂, hopened, hready₂, hpeer₂⟩ := hacknowledged.performs hoptions hready₁
  have htracks : (Frontier.empty.visitAll (nonzero opening.starts)).Tracks [] := Frontier.tracks_empty.visitAll _
  have hseen : ∀ a ∈ (Frontier.empty.visitAll (nonzero opening.starts)).seen, a ∈ graph.nodes := by
    intro a ha
    rcases Frontier.mem_seen_visitAll.1 ha with ha | ha
    · exact absurd ha (Finset.notMem_empty a)
    · exact hstarts a ha
  obtain ⟨turns, channel₃, hexplores, hserved⟩ := honest.exists_serves orders hone hbatch htracks hseen
    (show serving channel₂.peer.1 by rwa [hpeer₂]) hready₂
  obtain ⟨last, state', hcompletes⟩ := honest.complete _ hserved.serving
  obtain ⟨channel₄, hfinished, -, hpeer₄⟩ := hcompletes.performs (Nat.zero_le _) hserved.ready
  have hevents : (opening.session turns last).events options = receipts [⟨.hello, opening.helloPayload⟩] ++
      ((.sent .helloAck options :: receipts (⟨.wellKnown, opening.wellKnownPayload⟩ :: opening.rootFrames)) ++
        (turns.flatMap Turn.events ++ (.sent .finish [] :: receipts [⟨.complete, last⟩]))) := rfl
  refine ⟨turns, last, channel₄, hexplores, hserved.described, hserved.requests, ?_, ?_⟩
  · rw [hevents]
    exact hgreeting.append (hopened.append (hserved.performs.append hfinished))
  · rw [hpeer₄, hserved.log, hpeer₂, hpeer₁, hevents, said_append, said_append, said_append, said_receipts, said, said,
      said_receipts, said_receipts]
    simp only [List.nil_append, List.append_assoc]

end ObjectGraph.Honest

/-! ### What the walk has found -/

/-- The objects are those that can be found from `starts`, each once, and whatever they
mention is one of them, with its type in the table. -/
structure Collected (graph : ObjectGraph) (starts : List ℕ) (types : OrderedDict ℕ String) (objects : List HeapObject) :
    Prop where
  nodup : (objects.map HeapObject.address).Nodup
  reached : ∀ a, a ∈ objects.map HeapObject.address ↔ graph.Reached starts a
  described : ∀ obj ∈ objects, graph.Describes obj
  closed : ∀ obj ∈ objects, ∀ b, b ∈ obj.referents ∨ b ∈ contentAddresses obj ∨ b = obj.typeAddress → b ≠ 0 →
    ∃ target ∈ objects, target.address = b ∧ target.typeAddress ∈ types.keys

namespace Session

variable {session : Session} {orders : OrderChoice ℕ} {batchSize : ℕ}

/-- No object of a session has attributes. -/
theorem attributes_eq : ∀ obj ∈ session.objects, obj.attributes = [] := by
  intro obj hobj
  obtain ⟨turn, -, hobj⟩ := List.mem_flatMap.1 hobj
  exact Turn.attributes_eq obj hobj

section

variable (hexplores : Frontier.Explores HeapObject.address (discovered orders) (batchOf batchSize) (restOf batchSize)
    session.start (session.turns.map Turn.objects))
  (hdescribed : ∀ obj ∈ session.objects, graph.Describes obj)

include hexplores hdescribed

/-- **The walk finds exactly what can be reached**, each object once. -/
theorem mem_iff_reached : (session.objects.map HeapObject.address).Nodup ∧ ∀ a,
    a ∈ session.objects.map HeapObject.address ↔ graph.Reached (session.roots.flatten ++ session.addresses) a := by
  have hobjects : (session.turns.map Turn.objects).flatten = session.objects := (List.flatMap_def ..).symm
  have hnext : ∀ obj ∈ (session.turns.map Turn.objects).flatten, ∀ b,
      b ∈ discovered orders obj ↔ graph.Leads obj.address b := by
    rw [hobjects]
    exact fun obj hobj => (hdescribed obj hobj).mem_discovered (attributes_eq obj hobj) orders
  have hresult := hexplores.mem_iff_reachable (perm_batchOf batchSize) hnext
  rwa [hobjects] at hresult

/-- The types and objects of the session are those of the graph. -/
theorem collected (hcount : session.addresses.length = WELL_KNOWN_TYPE_NAMES.length) :
    Collected graph (session.roots.flatten ++ session.addresses) session.types session.objects := by
  obtain ⟨hnodup, hreached⟩ := mem_iff_reached hexplores hdescribed
  refine ⟨hnodup, hreached, hdescribed, fun obj hobj b hmentions hzero => ?_⟩
  have hleads : graph.Leads obj.address b := by
    have hdescribes := hdescribed obj hobj
    rw [← toFinset_addresses, List.mem_toFinset, hdescribes.content, hdescribes.referents,
      hdescribes.typeAddress] at hmentions
    exact ⟨hmentions, hzero⟩
  obtain ⟨root, hroot, hpath⟩ := (hreached obj.address).1 (List.mem_map_of_mem hobj)
  obtain ⟨target, htarget, rfl⟩ := List.mem_map.1 ((hreached b).2 ⟨root, hroot, hpath.tail hleads⟩)
  exact ⟨target, htarget, rfl, (mem_keys_types hcount).2 (.inr ⟨target, htarget, rfl⟩)⟩

/-- **A session fits where the graph does.** -/
theorem fits_iff (hcount : session.addresses.length = WELL_KNOWN_TYPE_NAMES.length)
    (hstarts : ∀ a ∈ nonzero (session.roots.flatten ++ session.addresses), a ∈ graph.nodes) :
    session.Fits ↔ graph.Fits (session.roots.flatten ++ session.addresses) session.addresses := by
  obtain ⟨hnodup, hreached⟩ := mem_iff_reached hexplores hdescribed
  have hset : graph.reached (session.roots.flatten ++ session.addresses) =
      (session.objects.map HeapObject.address).toFinset := by
    ext a
    rw [ObjectGraph.mem_reached hstarts, List.mem_toFinset, hreached]
  have hobjects : (∀ obj ∈ session.objects, ObjectFits obj) ↔
      ∀ a, graph.Reached (session.roots.flatten ++ session.addresses) a → (graph.facts a).Fits := by
    have hone : ∀ obj ∈ session.objects, ObjectFits obj ↔ (graph.facts obj.address).Fits := fun obj hobj =>
      (hdescribed obj hobj).fits_iff (attributes_eq obj hobj)
        (ObjectGraph.mem_nodes_of_reached hstarts ((hreached obj.address).1 (List.mem_map_of_mem hobj)))
    simp only [← hreached, List.forall_mem_map]
    exact forall₂_congr hone
  have hlen : (graph.reached (session.roots.flatten ++ session.addresses)).card = session.objects.length := by
    rw [hset, List.toFinset_card_of_nodup hnodup, List.length_map]
  have htypes : (session.addresses.toFinset ∪ (graph.reached (session.roots.flatten ++ session.addresses)).image
      fun a => (graph.facts a).typeAddress).card = session.types.entries.length := by
    have hkeys : session.addresses.toFinset ∪ (graph.reached (session.roots.flatten ++ session.addresses)).image
        (fun a => (graph.facts a).typeAddress) = session.types.keys.toFinset := by
      ext a
      rw [List.mem_toFinset, mem_keys_types hcount, Finset.mem_union, List.mem_toFinset, Finset.mem_image, hset]
      refine or_congr_right ⟨?_, ?_⟩
      · rintro ⟨address, haddress, rfl⟩
        obtain ⟨obj, hobj, rfl⟩ := List.mem_map.1 (List.mem_toFinset.1 haddress)
        exact ⟨obj, hobj, (hdescribed obj hobj).typeAddress⟩
      · rintro ⟨obj, hobj, rfl⟩
        exact ⟨obj.address, List.mem_toFinset.2 (List.mem_map_of_mem hobj), (hdescribed obj hobj).typeAddress.symm⟩
    rw [hkeys, List.toFinset_card_of_nodup session.types.keys_nodup, OrderedDict.keys, List.length_map]
  constructor
  · intro h
    exact ⟨hobjects.1 h.objects, hlen ▸ h.count, htypes ▸ h.types⟩
  · intro h
    exact ⟨hobjects.2 h.objects, hlen ▸ h.count, htypes ▸ h.types⟩

end

end Session

/-- What a Collector sends that asks for `batches`. -/
def requests (options : List UInt8) (batches : List (List ℕ)) : List Frame :=
  ⟨.helloAck, options⟩ :: (batches.map (fun batch => ⟨.requestObjects, packAddresses batch⟩) ++ [⟨.finish, []⟩])

/-- In a turn the Collector says its request. -/
theorem said_turns (turns : List Turn) : said (turns.flatMap Turn.events) =
    turns.map fun turn => (Frame.mk .requestObjects (packAddresses (turn.objects.map HeapObject.address))).bytes := by
  induction turns with
  | nil => rfl
  | cons turn turns ih =>
    rw [List.flatMap_cons, said_append, ih, Turn.events, said, said_receipts, List.map_cons, List.singleton_append]

/-- What the Collector says are its requests. -/
theorem Session.said_events (session : Session) (options : List UInt8) : said (session.events options) =
    (requests options (session.turns.map fun turn => turn.objects.map HeapObject.address)).map Frame.bytes := by
  simp only [Session.events, requests, said, said_append, said_receipts, said_turns, List.map_cons, List.map_append,
    List.map_map, List.nil_append, List.map_nil]
  rfl

end Capture
end Pydump
