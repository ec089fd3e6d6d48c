import RssMdmAgent.PrivateLinkFrames

set_option autoImplicit false

/-! # What a receiver delivers from any stream -/

namespace RssMdmAgent.PrivateLink
open StreamFraming TransitionRuns

def payloads (frames : List Frame) (id : Nat) : List Bytes := (frames.filter fun f => decide (f.lane = id)).map Frame.payload

section Payloads
variable {frames others : List Frame} {f : Frame} {id : Nat}

theorem payloads_append : payloads (frames ++ others) id = payloads frames id ++ payloads others id := by
  unfold payloads
  rw [List.filter_append, List.map_append]

theorem payloads_cons : payloads (f :: frames) id = if f.lane = id then f.payload :: payloads frames id else payloads frames id := by
  unfold payloads
  rw [List.filter_cons]
  split <;> simp_all

theorem sizes_append (first second : List Bytes) : sizes (first ++ second) = sizes first + sizes second := by
  unfold sizes
  rw [List.map_append, List.sum_append]

theorem sizes_prefix {first second : List Bytes} (h : first.IsPrefix second) : sizes first ≤ sizes second := by
  obtain ⟨rest, rfl⟩ := h
  rw [sizes_append]
  exact Nat.le_add_right _ _

end Payloads

section Lanes
variable {r : Receiver} {f : Frame} {frames : List Frame} {id : Nat}

theorem lane_set {lane : Lane} {i : Nat} (inside : i < r.lanes.length) :
    ({ r with lanes := r.lanes.set i lane } : Receiver).lane id = if id = i then lane else r.lane id := by
  unfold Receiver.lane
  dsimp only
  rw [List.getD_eq_getElem?_getD, List.getD_eq_getElem?_getD, List.getElem?_set]
  by_cases same : i = id
  · rw [if_pos same, if_pos same.symm, if_pos inside]
    rfl
  · rw [if_neg same, if_neg (Ne.symm same)]

theorem lane_close : r.close.lane id = { r.lane id with chunks := [] } := by
  unfold Receiver.close Receiver.lane
  dsimp only
  rw [List.getD_eq_getElem?_getD, List.getD_eq_getElem?_getD, List.getElem?_map]
  cases r.lanes[id]? <;> rfl

def Receiver.pushAll (r : Receiver) (frames : List Frame) : Receiver := frames.foldl Receiver.push r

theorem length_pushAll : (r.pushAll frames).lanes.length = r.lanes.length := by
  induction frames generalizing r with
  | nil => rfl
  | cons f rest ih =>
    refine (ih (r := r.push f)).trans ?_
    unfold Receiver.push
    exact List.length_set

theorem ended_pushAll : (r.pushAll frames).ended = r.ended := by
  induction frames generalizing r with
  | nil => rfl
  | cons f rest ih => exact ih (r := r.push f)

theorem pushAll_buffer {buffer : Bytes} :
    ({ r with buffer := buffer } : Receiver).pushAll frames = { r.pushAll frames with buffer := buffer } := by
  induction frames generalizing r with
  | nil => rfl
  | cons f rest ih => exact ih (r := r.push f)

theorem lane_pushAll (valid : ∀ f ∈ frames, f.lane < r.lanes.length) :
    (r.pushAll frames).lane id = { r.lane id with chunks := (r.lane id).chunks ++ payloads frames id } := by
  induction frames generalizing r with
  | nil =>
    show r.lane id = _
    unfold payloads
    simp
  | cons f rest ih =>
    obtain ⟨here, later⟩ := List.forall_mem_cons.mp valid
    have kept : (r.push f).lanes.length = r.lanes.length := List.length_set
    have next : (r.push f).lane id = if id = f.lane then (r.lane f.lane).push f.payload else r.lane id := lane_set here
    have step : (r.pushAll (f :: rest)).lane id = ((r.push f).pushAll rest).lane id := rfl
    rw [step, ih fun g mem => kept ▸ later g mem, next, payloads_cons]
    by_cases same : id = f.lane
    · rw [if_pos same, if_pos same.symm, same]
      simp [Lane.push]
    · rw [if_neg same, if_neg (Ne.symm same)]

end Lanes

section Loop
variable {lanes : Nat} {few : lanes ≤ 256} {r : Receiver}

def Fails (lanes : Nat) (r : Receiver) (rest : Bytes) : Prop :=
  scan lanes rest = .bad ∨
    ∃ f later, scan lanes rest = .frame f later ∧ maxQueued < (r.lane f.lane).readableLength + f.payload.length

theorem loop_spec (few : lanes ≤ 256) (count : r.lanes.length = lanes) : ∃ frames rest,
    (framing lanes few).AllValid frames ∧ r.buffer = (framing lanes few).encodeAll frames ++ rest ∧
      ((r.loop = { r.pushAll frames with buffer := rest } ∧ scan lanes rest = .more) ∨
        (r.loop = (r.pushAll frames).close ∧ Fails lanes (r.pushAll frames) rest)) := by
  induction length : r.buffer.length using Nat.strong_induction_on generalizing r with
  | _ n ih =>
    subst count
    rw [Receiver.loop]
    split
    · rename_i more
      exact ⟨[], r.buffer, .nil, rfl, .inl ⟨rfl, more⟩⟩
    · rename_i bad
      exact ⟨[], r.buffer, .nil, rfl, .inr ⟨rfl, .inl bad⟩⟩
    · rename_i f rest scanned
      split
      · rename_i full
        exact ⟨[], r.buffer, .nil, rfl, .inr ⟨rfl, .inr ⟨f, rest, scanned, full⟩⟩⟩
      · obtain ⟨valid, same⟩ := scan_sound scanned
        have kept : ({ r.push f with buffer := rest } : Receiver).lanes.length = r.lanes.length := List.length_set
        obtain ⟨frames, left, valids, parts, result⟩ := ih rest.length (length ▸ scan_shorter scanned)
          (r := { r.push f with buffer := rest }) kept rfl
        have all : ({ r.push f with buffer := rest } : Receiver).pushAll frames = { r.pushAll (f :: frames) with buffer := rest } :=
          pushAll_buffer
        rw [all] at result
        refine ⟨f :: frames, left, Framing.allValid_cons.mpr ⟨valid, valids⟩, ?_, result⟩
        rw [Framing.encodeAll_cons, List.append_assoc, ← parts]
        exact same

end Loop

/-- What a receiver has delivered: the payloads of the whole frames at the front of its stream. -/
structure Delivered {lanes : Nat} (few : lanes ≤ 256) (received : Bytes) (frames : List Frame) (r : Receiver) : Prop where
  count : r.lanes.length = lanes
  valid : (framing lanes few).AllValid frames
  live : r.ended = false → received = (framing lanes few).encodeAll frames ++ r.buffer ∧ scan lanes r.buffer = .more ∧
    ∀ id, (r.lane id).read ++ (r.lane id).chunks = payloads frames id
  closed : r.ended = true → ((framing lanes few).encodeAll frames).IsPrefix received ∧
    ∀ id, (r.lane id).read.IsPrefix (payloads frames id) ∧ (r.lane id).chunks = []

section Delivery
variable {lanes : Nat} {few : lanes ≤ 256} {r : Receiver} {received chunk : Bytes} {frames : List Frame} {id : Nat}

theorem start_delivered (few : lanes ≤ 256) : Delivered few [] [] (.start lanes) := by
  refine ⟨List.length_replicate, .nil, fun _ => ⟨rfl, rfl, fun id => ?_⟩, fun ended => Bool.noConfusion ended⟩
  unfold Receiver.start Receiver.lane
  dsimp only
  rw [List.getD_eq_getElem?_getD, List.getElem?_replicate]
  split <;> rfl

theorem Delivered.read (d : Delivered few received frames r) (id : Nat) : (r.lane id).read.IsPrefix (payloads frames id) := by
  cases ended : r.ended with
  | false =>
    rw [← (d.live ended).2.2 id]
    exact List.prefix_append _ _
  | true => exact ((d.closed ended).2 id).1

theorem Delivered.front (d : Delivered few received frames r) : ((framing lanes few).encodeAll frames).IsPrefix received := by
  cases ended : r.ended with
  | false =>
    rw [(d.live ended).1]
    exact List.prefix_append _ _
  | true => exact (d.closed ended).1

theorem Delivered.close (d : Delivered few received frames r) (chunk : Bytes) :
    Delivered few (received ++ chunk) frames r.close := by
  refine ⟨?_, d.valid, fun live => Bool.noConfusion live, fun _ => ⟨d.front.trans (List.prefix_append _ _), fun id => ?_⟩⟩
  · unfold Receiver.close
    rw [List.length_map]
    exact d.count
  · rw [lane_close]
    exact ⟨d.read id, rfl⟩

theorem pushed_lanes {more : List Frame} (count : r.lanes.length = lanes) (valid : (framing lanes few).AllValid more) (id : Nat) :
    (r.pushAll more).lane id = { r.lane id with chunks := (r.lane id).chunks ++ payloads more id } :=
  lane_pushAll fun f mem => count ▸ (valid f mem).lane

/-- A chunk delivers the frames that it completes. -/
theorem Delivered.data (d : Delivered few received frames r) (chunk : Bytes) :
    ∃ more, Delivered few (received ++ chunk) (frames ++ more) (r.data chunk) := by
  unfold Receiver.data
  rcases Bool.eq_false_or_eq_true r.ended with ended | ended
  · refine ⟨[], ?_⟩
    rw [if_pos ended, List.append_nil]
    obtain ⟨front, lanes⟩ := d.closed ended
    refine ⟨d.count, d.valid, fun live => ?_, fun _ => ⟨front.trans (List.prefix_append _ _), lanes⟩⟩
    rw [ended] at live
    cases live
  · rw [if_neg (Bool.eq_false_iff.mp ended)]
    split
    · refine ⟨[], ?_⟩
      rw [List.append_nil]
      exact d.close chunk
    obtain ⟨same, -, lanes'⟩ := d.live ended
    obtain ⟨more, rest, valid, parts, result⟩ := loop_spec few (r := { r with buffer := r.buffer ++ chunk }) d.count
    have pushed : ({ r with buffer := r.buffer ++ chunk } : Receiver).pushAll more = { r.pushAll more with buffer := r.buffer ++ chunk } :=
      pushAll_buffer
    rw [pushed] at result
    dsimp only at parts
    have all : received ++ chunk = (framing lanes few).encodeAll (frames ++ more) ++ rest := by
      rw [same, List.append_assoc, parts, ← List.append_assoc, ← Framing.encodeAll_append]
    have both : ∀ id, ((r.pushAll more).lane id).read ++ ((r.pushAll more).lane id).chunks = payloads (frames ++ more) id := by
      intro id
      rw [pushed_lanes d.count valid, payloads_append, ← lanes' id, List.append_assoc]
    refine ⟨more, ?_⟩
    rcases result with ⟨looped, more'⟩ | ⟨looped, -⟩
    · rw [looped]
      refine ⟨length_pushAll.trans d.count, d.valid.append valid, fun _ => ⟨all, more', both⟩, fun closed => ?_⟩
      have still : (r.pushAll more).ended = true := closed
      rw [ended_pushAll, ended] at still
      cases still
    · rw [looped]
      refine ⟨?_, d.valid.append valid, fun live => Bool.noConfusion live, fun _ => ⟨⟨rest, all.symm⟩, fun id => ?_⟩⟩
      · unfold Receiver.close
        rw [List.length_map]
        exact length_pushAll.trans d.count
      · rw [lane_close]
        refine ⟨?_, rfl⟩
        rw [← both id]
        exact List.prefix_append _ _

theorem length_waiting (more : scan lanes r.buffer = .more) : r.buffer.length < maxFrame + headerBytes := by
  rcases scan_more more with short | ⟨f, valid, part, -⟩
  · unfold headerBytes maxFrame at *
    omega
  · rw [length_encode] at part
    have small := valid.small
    omega

theorem Delivered.fails (d : Delivered few received frames r) (size : chunk.length ≤ maxFrame + headerBytes)
    (live : r.ended = false) (ended : (r.data chunk).ended = true) : ∃ more rest, (framing lanes few).AllValid more ∧
      r.buffer ++ chunk = (framing lanes few).encodeAll more ++ rest ∧ Fails lanes (r.pushAll more) rest := by
  obtain ⟨-, waiting, -⟩ := d.live live
  have room : ¬ maxFrame * 3 < r.buffer.length + chunk.length := by
    have short := length_waiting waiting
    unfold maxFrame headerBytes at *
    omega
  unfold Receiver.data at ended
  rw [if_neg (Bool.eq_false_iff.mp live), if_neg room] at ended
  obtain ⟨more, rest, valid, parts, result⟩ := loop_spec few (r := { r with buffer := r.buffer ++ chunk }) d.count
  rw [pushAll_buffer] at result
  rcases result with ⟨looped, -⟩ | ⟨-, fails⟩
  · rw [looped] at ended
    have still : (r.pushAll more).ended = true := ended
    rw [ended_pushAll, live] at still
    cases still
  · exact ⟨more, rest, valid, parts, fails⟩

theorem lane_consume {i : Nat} (inside : i < r.lanes.length) (live : r.ended = false) :
    (r.consume i).lane id = if id = i then (r.lane i).consume else r.lane id := by
  unfold Receiver.consume
  rw [live, if_neg Bool.false_ne_true]
  exact lane_set inside

theorem consume_chunks (lane : Lane) : lane.consume.read ++ lane.consume.chunks = lane.read ++ lane.chunks := by
  unfold Lane.consume
  split
  · rfl
  · rename_i first rest same
    simp [same]

theorem ended_consume {i : Nat} : (r.consume i).ended = r.ended := by
  unfold Receiver.consume
  split <;> rfl

theorem Delivered.consume {i : Nat} (d : Delivered few received frames r) (inside : i < r.lanes.length) :
    Delivered few received frames (r.consume i) := by
  cases ended : r.ended with
  | true =>
    have same : r.consume i = r := by
      unfold Receiver.consume
      rw [ended, if_pos rfl]
    rwa [same]
  | false =>
    obtain ⟨front, waiting, both⟩ := d.live ended
    refine ⟨?_, d.valid, fun _ => ⟨?_, ?_, fun id => ?_⟩, fun closed => ?_⟩
    · unfold Receiver.consume
      rw [ended, if_neg Bool.false_ne_true]
      exact List.length_set.trans d.count
    · unfold Receiver.consume
      rw [ended, if_neg Bool.false_ne_true]
      exact front
    · unfold Receiver.consume
      rw [ended, if_neg Bool.false_ne_true]
      exact waiting
    · rw [lane_consume inside ended, ← both id]
      split
      · rename_i same
        rw [consume_chunks, same]
      · rfl
    · rw [ended_consume, ended] at closed
      cases closed

end Delivery

end RssMdmAgent.PrivateLink
