import RssMdmAgent.PrivateLinkReceiver

set_option autoImplicit false

/-! # The lanes of a link carry what was written to them -/

namespace RssMdmAgent.PrivateLink
open StreamFraming TransitionRuns

def written (id : Nat) : Label → Option Bytes
  | .write i data => if i = id then some data else none
  | _ => none

def writes (labels : List Label) (id : Nat) : List Bytes := labels.filterMap (written id)

structure Holds (id : Nat) (waiting : List Bytes) (q : Queue) : Prop where
  frames : q.frames = waiting.map fun payload => Frame.encode ⟨id, payload⟩
  queued : q.queued = sizes waiting
  sized : ∀ payload ∈ waiting, payload ≠ [] ∧ payload.length ≤ maxFrame

def AllHold (waiting : Nat → List Bytes) (queues : List Queue) : Prop :=
  ∀ id q, queues[id]? = some q → Holds id (waiting id) q

section Queues
variable {waiting : Nat → List Bytes} {queues rest : List Queue} {frame : Bytes} {id : Nat} {q : Queue}

theorem pop_some (h : pop queues = some (frame, rest)) : ∃ i q frames, queues[i]? = some q ∧ q.frames = frame :: frames ∧
    rest = queues.set i ⟨frames, q.queued - (frame.length - headerBytes)⟩ := by
  induction queues generalizing rest with
  | nil => cases h
  | cons first queues ih =>
    obtain ⟨frames, queued⟩ := first
    cases frames with
    | cons first frames =>
      cases h
      exact ⟨0, _, frames, rfl, rfl, rfl⟩
    | nil =>
      unfold pop at h
      obtain ⟨⟨next, others⟩, popped, same⟩ := Option.map_eq_some_iff.mp h
      cases same
      obtain ⟨i, q, frames, found, front, same⟩ := ih popped
      exact ⟨i + 1, q, frames, found, front, by rw [same]; rfl⟩

theorem AllHold.pop (hold : AllHold waiting queues) (h : PrivateLink.pop queues = some (frame, rest)) :
    ∃ i payload later, i < queues.length ∧ waiting i = payload :: later ∧ frame = Frame.encode ⟨i, payload⟩ ∧
      payload ≠ [] ∧ payload.length ≤ maxFrame ∧ rest.length = queues.length ∧
      AllHold (Function.update waiting i later) rest := by
  obtain ⟨i, q, frames, found, front, rfl⟩ := pop_some h
  obtain ⟨same, queued, sized⟩ := hold i q found
  rw [front] at same
  cases waits : waiting i with
  | nil =>
    rw [waits] at same
    cases same
  | cons payload later =>
    rw [waits, List.map_cons] at same
    injection same with head tail
    rw [waits] at queued sized
    obtain ⟨fits, others⟩ := List.forall_mem_cons.mp sized
    obtain ⟨inside, -⟩ := List.getElem?_eq_some_iff.mp found
    refine ⟨i, payload, later, inside, waits, head, fits.1, fits.2, List.length_set, ?_⟩
    intro id q' found'
    rw [List.getElem?_set] at found'
    by_cases here : i = id
    · subst here
      rw [if_pos rfl, if_pos inside] at found'
      cases found'
      rw [Function.update_self]
      refine ⟨tail, ?_, others⟩
      dsimp only
      rw [queued, head, length_encode]
      unfold sizes
      rw [List.map_cons, List.sum_cons]
      dsimp only
      omega
    · rw [if_neg here] at found'
      rw [Function.update_of_ne (Ne.symm here)]
      exact hold id q' found'

/-- The output carries the first payloads of each lane, and the others wait. -/
theorem flushLoop_spec {lanes : Nat} (few : lanes ≤ 256) (room : Nat) (count : queues.length = lanes)
    (hold : AllHold waiting queues) : ∃ frames later, (framing lanes few).AllValid frames ∧
      (flushLoop room queues).1 = (framing lanes few).encodeAll frames ∧ (flushLoop room queues).2.1.length = lanes ∧
      AllHold later (flushLoop room queues).2.1 ∧ ∀ id, waiting id = payloads frames id ++ later id := by
  have one {queues rest : List Queue} {waiting : Nat → List Bytes} {frame : Bytes} (count : queues.length = lanes)
      (hold : AllHold waiting queues) (popped : pop queues = some (frame, rest)) :
      ∃ f later, Frame.Valid lanes f ∧ frame = f.encode ∧ rest.length = lanes ∧ AllHold later rest ∧
        ∀ id, waiting id = payloads [f] id ++ later id := by
    obtain ⟨i, payload, later, inside, waits, same, some, small, length, held⟩ := hold.pop popped
    refine ⟨⟨i, payload⟩, _, ⟨count ▸ inside, some, small⟩, same, length.trans count, held, fun id => ?_⟩
    rw [payloads_cons]
    by_cases here : id = i
    · subst here
      rw [if_pos rfl, Function.update_self, waits]
      rfl
    · rw [if_neg (Ne.symm here), Function.update_of_ne here]
      rfl
  induction room generalizing queues waiting with
  | zero =>
    unfold flushLoop
    split
    · exact ⟨[], waiting, .nil, rfl, count, hold, fun _ => rfl⟩
    · rename_i popped
      obtain ⟨f, later, valid, rfl, length, held, split⟩ := one count hold popped
      refine ⟨[f], later, Framing.allValid_cons.mpr ⟨valid, .nil⟩, ?_, length, held, split⟩
      rw [Framing.encodeAll_cons, Framing.encodeAll_nil, List.append_nil]
      rfl
  | succ room ih =>
    unfold flushLoop
    split
    · exact ⟨[], waiting, .nil, rfl, count, hold, fun _ => rfl⟩
    · rename_i popped
      obtain ⟨f, middle, valid, rfl, length, held, split⟩ := one count hold popped
      obtain ⟨frames, later, valids, output, length', held', rest⟩ := ih length held
      refine ⟨f :: frames, later, Framing.allValid_cons.mpr ⟨valid, valids⟩, ?_, length', held', fun id => ?_⟩
      · rw [Framing.encodeAll_cons]
        dsimp only
        rw [output]
        rfl
      · rw [split id, rest id, ← List.append_assoc, ← payloads_append]
        rfl

end Queues

/-- What a sender has given to its output of what was written to it. -/
structure Emitted {lanes : Nat} (few : lanes ≤ 256) (given : Nat → List Bytes) (frames : List Frame) (sent : Bytes)
    (s : Sender) : Prop where
  count : s.lanes.length = lanes
  valid : (framing lanes few).AllValid frames
  sent : sent = (framing lanes few).encodeAll frames
  live : s.ended = false → ∃ waiting, AllHold waiting s.lanes ∧ ∀ id, given id = payloads frames id ++ waiting id
  closed : s.ended = true → ∀ id, (payloads frames id).IsPrefix (given id)

section Sending
variable {lanes : Nat} {few : lanes ≤ 256} {given : Nat → List Bytes} {frames : List Frame} {sent : Bytes} {s : Sender}

theorem Emitted.front (e : Emitted few given frames sent s) (id : Nat) : (payloads frames id).IsPrefix (given id) := by
  rcases Bool.eq_false_or_eq_true s.ended with ended | live
  · exact e.closed ended id
  · obtain ⟨waiting, -, split⟩ := e.live live
    exact ⟨waiting id, (split id).symm⟩

theorem Emitted.close (e : Emitted few given frames sent s) {more : Nat → List Bytes} (grows : ∀ id, (given id).IsPrefix (more id)) :
    Emitted few more frames sent s.close := by
  refine ⟨?_, e.valid, e.sent, fun live => Bool.noConfusion live, fun _ id => (e.front id).trans (grows id)⟩
  unfold Sender.close
  rw [List.length_map]
  exact e.count

theorem Emitted.flush (e : Emitted few given frames sent s) (room : Nat) :
    ∃ more, Emitted few given (frames ++ more) (sent ++ (s.flush room).2) (s.flush room).1 := by
  unfold Sender.flush
  split
  · refine ⟨[], ?_⟩
    rw [List.append_nil, List.append_nil]
    exact e
  · rename_i busy
    obtain ⟨live, -⟩ := not_or.mp busy
    obtain ⟨waiting, hold, split⟩ := e.live (Bool.eq_false_iff.mpr live)
    obtain ⟨more, later, valid, output, length, held, rest⟩ := flushLoop_spec few room e.count hold
    refine ⟨more, length, e.valid.append valid, ?_, fun _ => ⟨later, held, fun id => ?_⟩, fun ended => absurd ended live⟩
    · rw [Framing.encodeAll_append, ← e.sent]
      dsimp only
      rw [output]
    · rw [split id, rest id, payloads_append, List.append_assoc]

theorem Emitted.drain (e : Emitted few given frames sent s) (room : Nat) :
    ∃ more, Emitted few given (frames ++ more) (sent ++ (s.drain room).2) (s.drain room).1 := by
  have ready : Emitted few given frames sent { s with waiting := false } := ⟨e.count, e.valid, e.sent, e.live, e.closed⟩
  exact ready.flush room

/-- A payload that is written waits on its lane, or closes the link. -/
theorem Emitted.write (e : Emitted few given frames sent s) {id : Nat} (inside : id < s.lanes.length) (data : Bytes) :
    Emitted few (Function.update given id (given id ++ [data])) frames sent (s.write id data) := by
  have grows : ∀ i, (given i).IsPrefix (Function.update given id (given id ++ [data]) i) := by
    intro i
    by_cases here : i = id
    · subst here
      rw [Function.update_self]
      exact List.prefix_append _ _
    · rw [Function.update_of_ne here]
  unfold Sender.write
  dsimp only
  split
  · exact e.close grows
  · rename_i bounds
    have live : s.ended = false := Bool.eq_false_iff.mpr (not_or.mp bounds).1
    obtain ⟨waiting, hold, split⟩ := e.live live
    refine ⟨List.length_set.trans e.count, e.valid, e.sent, fun _ => ?_, fun ended => ?_⟩
    · refine ⟨Function.update waiting id (waiting id ++ [data]), ?_, fun i => ?_⟩
      · intro i q found
        dsimp only at found
        rw [List.getElem?_set] at found
        by_cases here : id = i
        · subst here
          rw [if_pos rfl, if_pos inside] at found
          cases found
          have old : Holds id (waiting id) (s.lanes.getD id ⟨[], 0⟩) := by
            apply hold
            rw [List.getD_eq_getElem?_getD, List.getElem?_eq_getElem inside]
            rfl
          rw [Function.update_self]
          refine ⟨?_, ?_, ?_⟩
          · rw [List.map_append, ← old.frames]
            rfl
          · rw [sizes_append, ← old.queued]
            rfl
          · intro payload mem
            rcases List.mem_append.mp mem with mem | mem
            · exact old.sized payload mem
            · cases List.mem_singleton.mp mem
              exact ⟨fun empty => bounds (.inr (.inl empty)), Nat.le_of_not_lt fun large => bounds (.inr (.inr (.inl large)))⟩
        · rw [if_neg here] at found
          rw [Function.update_of_ne (Ne.symm here)]
          exact hold i q found
      · by_cases here : i = id
        · subst here
          rw [Function.update_self, Function.update_self, split i, List.append_assoc]
        · rw [Function.update_of_ne here, Function.update_of_ne here]
          exact split i
    · have still : s.ended = true := ended
      rw [live] at still
      cases still

end Sending

section Links
variable {lanes : Nat} {few : lanes ≤ 256} {l m : Link} {labels : List Label} {label : Label}

structure Carried {lanes : Nat} (few : lanes ≤ 256) (labels : List Label) (l : Link) : Prop where
  emitted : ∃ frames, Emitted few (writes labels) frames l.sent l.sender
  taken : l.taken ≤ l.sent.length
  delivered : ∃ frames, Delivered few (l.sent.take l.taken) frames l.receiver

theorem writes_append (id : Nat) : writes (labels ++ [label]) id = writes labels id ++ ([label].filterMap (written id)) := by
  unfold writes
  rw [List.filterMap_append]

theorem writes_silent (silent : ∀ id, written id label = none) : writes (labels ++ [label]) = writes labels := by
  funext id
  rw [writes_append]
  simp [silent id]

theorem writes_write {id : Nat} {data : Bytes} :
    writes (labels ++ [.write id data]) = Function.update (writes labels) id (writes labels id ++ [data]) := by
  funext i
  rw [writes_append]
  by_cases here : i = id
  · subst here
    rw [Function.update_self]
    simp [written]
  · rw [Function.update_of_ne here]
    simp [written, Ne.symm here]

theorem start_carried (few : lanes ≤ 256) : Carried few [] (.start lanes) := by
  refine ⟨⟨[], List.length_replicate, .nil, rfl, fun _ => ⟨fun _ => [], ?_, fun _ => rfl⟩, fun ended => Bool.noConfusion ended⟩,
    Nat.le_refl 0, ⟨[], start_delivered few⟩⟩
  intro id q found
  dsimp only [Link.start] at found
  rw [List.getElem?_replicate] at found
  split at found
  · cases found
    exact ⟨rfl, rfl, fun _ mem => absurd mem List.not_mem_nil⟩
  · cases found

theorem taken_append {taken : Nat} {sent : Bytes} (more : Bytes) (inside : taken ≤ sent.length) :
    taken ≤ (sent ++ more).length ∧ (sent ++ more).take taken = sent.take taken := by
  refine ⟨?_, List.take_append_of_le_length inside⟩
  rw [List.length_append]
  omega

theorem step_carried (carried : Carried few labels l) (h : Step l label m) : Carried few (labels ++ [label]) m := by
  obtain ⟨⟨frames, emitted⟩, inside, ⟨done, delivered⟩⟩ := carried
  unfold Step Link.perform at h
  cases label with
  | write id data =>
    dsimp only at h
    split at h
    · rename_i known
      cases h
      refine ⟨⟨frames, ?_⟩, inside, ⟨done, delivered⟩⟩
      rw [writes_write]
      exact emitted.write known data
    · cases h
  | flush room =>
    cases h
    obtain ⟨more, emitted⟩ := emitted.flush room
    obtain ⟨within, same⟩ := taken_append (l.sender.flush room).2 inside
    refine ⟨⟨frames ++ more, ?_⟩, within, ⟨done, same ▸ delivered⟩⟩
    rw [writes_silent fun _ => rfl]
    exact emitted
  | drain room =>
    cases h
    obtain ⟨more, emitted⟩ := emitted.drain room
    obtain ⟨within, same⟩ := taken_append (l.sender.drain room).2 inside
    refine ⟨⟨frames ++ more, ?_⟩, within, ⟨done, same ▸ delivered⟩⟩
    rw [writes_silent fun _ => rfl]
    exact emitted
  | transfer size =>
    dsimp only at h
    split at h
    · rename_i fits
      cases h
      rw [Bool.and_eq_true, decide_eq_true_eq] at fits
      obtain ⟨more, delivered⟩ := delivered.data ((l.sent.drop l.taken).take size)
      refine ⟨⟨frames, ?_⟩, fits.2, ⟨done ++ more, ?_⟩⟩
      · rw [writes_silent fun _ => rfl]
        exact emitted
      · dsimp only
        rw [List.take_add]
        exact delivered
    · cases h
  | consume id =>
    dsimp only at h
    split at h
    · rename_i known
      cases h
      refine ⟨⟨frames, ?_⟩, inside, ⟨done, delivered.consume known⟩⟩
      rw [writes_silent fun _ => rfl]
      exact emitted
    · cases h
  | closeSender =>
    cases h
    refine ⟨⟨frames, ?_⟩, inside, ⟨done, delivered⟩⟩
    rw [writes_silent fun _ => rfl]
    exact emitted.close fun _ => List.prefix_rfl
  | closeReceiver =>
    cases h
    refine ⟨⟨frames, ?_⟩, inside, ⟨done, ?_⟩⟩
    · rw [writes_silent fun _ => rfl]
      exact emitted
    · have closed := delivered.close []
      rwa [List.append_nil] at closed

theorem run_carried (run : Runs Step (.start lanes) labels l) : Carried few labels l :=
  run.history (Carried few) (start_carried few) fun _ _ _ _ carried h => step_carried carried h

end Links

end RssMdmAgent.PrivateLink
