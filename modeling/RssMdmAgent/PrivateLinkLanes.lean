import RssMdmAgent.PrivateLinkRuns

set_option autoImplicit false

/-! # Lanes round trip, and other streams close the link -/

namespace RssMdmAgent.PrivateLink
open StreamFraming TransitionRuns

section Links
variable {lanes : Nat} {few : lanes ≤ 256} {l m : Link} {labels : List Label} {frames done : List Frame} {id : Nat}

theorem frames_left (emitted : Emitted few (writes labels) frames l.sent l.sender)
    (delivered : Delivered few (l.sent.take l.taken) done l.receiver) (live : l.receiver.ended = false) :
    ∃ left, frames = done ++ left ∧ l.receiver.buffer ++ l.sent.drop l.taken = (framing lanes few).encodeAll left := by
  apply Framing.cancel delivered.valid emitted.valid
  rw [← List.append_assoc, ← (delivered.live live).1, List.take_append_drop]
  exact emitted.sent

theorem Carried.read (carried : Carried few labels l) (id : Nat) : (l.receiver.lane id).read.IsPrefix (writes labels id) := by
  obtain ⟨⟨frames, emitted⟩, -, ⟨done, delivered⟩⟩ := carried
  have front : ((framing lanes few).encodeAll done).IsPrefix l.sent := delivered.front.trans (List.take_prefix _ _)
  obtain ⟨rest, same⟩ := front
  rw [emitted.sent] at same
  obtain ⟨left, rfl, -⟩ := Framing.cancel delivered.valid emitted.valid same
  refine (delivered.read id).trans (List.IsPrefix.trans ?_ (emitted.front id))
  rw [payloads_append]
  exact List.prefix_append _ _

theorem Carried.account (carried : Carried few labels l) (sending : l.sender.ended = false) (receiving : l.receiver.ended = false) :
    ∃ left waiting, (framing lanes few).AllValid left ∧
      l.receiver.buffer ++ l.sent.drop l.taken = (framing lanes few).encodeAll left ∧ AllHold waiting l.sender.lanes ∧
      ∀ id, writes labels id =
        (l.receiver.lane id).read ++ (l.receiver.lane id).chunks ++ payloads left id ++ waiting id := by
  obtain ⟨⟨frames, emitted⟩, -, ⟨done, delivered⟩⟩ := carried
  obtain ⟨left, rfl, under⟩ := frames_left emitted delivered receiving
  obtain ⟨waiting, hold, split⟩ := emitted.live sending
  refine ⟨left, waiting, fun f mem => emitted.valid f (List.mem_append_right _ mem), under, hold, fun id => ?_⟩
  rw [split id, payloads_append, ← (delivered.live receiving).2.2 id]

theorem Carried.all (carried : Carried few labels l) (sending : l.sender.ended = false) (receiving : l.receiver.ended = false)
    (flushed : ∀ q ∈ l.sender.lanes, q.frames = []) (arrived : l.taken = l.sent.length)
    (inside : id < l.sender.lanes.length) (read : (l.receiver.lane id).chunks = []) :
    (l.receiver.lane id).read = writes labels id := by
  obtain ⟨left, waiting, valid, under, hold, split⟩ := carried.account sending receiving
  obtain ⟨-, -, ⟨done, delivered⟩⟩ := carried
  have none : left = [] := by
    cases left with
    | nil => rfl
    | cons f left =>
      rw [arrived, List.drop_length, List.append_nil] at under
      have scanned := Framing.scan_encodeAll [] valid
      rw [List.append_nil, ← under] at scanned
      have waits : (framing lanes few).scan l.receiver.buffer = .more := (delivered.live receiving).2.1
      rw [waits] at scanned
      cases scanned
  have empty : waiting id = [] := by
    have holds := hold id _ (List.getElem?_eq_getElem inside)
    have frames := holds.frames
    rw [flushed _ (List.getElem_mem inside)] at frames
    exact List.map_eq_nil_iff.mp frames.symm
  rw [split id, none, empty, read]
  unfold payloads
  simp

/-- A chunk closes the link only if a lane has more bytes unread than it may hold. -/
theorem Carried.transfer {size : Nat} (carried : Carried few labels l) (h : Step l (.transfer size) m)
    (receiving : l.receiver.ended = false)
    (room : ∀ id, sizes (writes labels id) ≤ sizes (l.receiver.lane id).read + maxQueued) : m.receiver.ended = false := by
  obtain ⟨⟨frames, emitted⟩, -, ⟨done, delivered⟩⟩ := carried
  unfold Step Link.perform at h
  dsimp only at h
  split at h
  case isFalse => cases h
  rename_i fits
  cases h
  rw [Bool.and_eq_true] at fits
  obtain ⟨chunk, within⟩ := fits
  unfold chunkSize at chunk
  rw [Bool.and_eq_true, decide_eq_true_eq, decide_eq_true_eq] at chunk
  have length : ((l.sent.drop l.taken).take size).length ≤ maxFrame + headerBytes := by
    rw [List.length_take]
    omega
  by_contra ended
  obtain ⟨more, rest, valid, parts, fails⟩ := delivered.fails length receiving (Bool.not_eq_false _ ▸ ended)
  obtain ⟨left, rfl, under⟩ := frames_left emitted delivered receiving
  -- what the chunk leaves is the front of the frames that are still under way
  have left_valid : (framing lanes few).AllValid left := fun f mem => emitted.valid f (List.mem_append_right _ mem)
  have split : (framing lanes few).encodeAll more ++ (rest ++ (l.sent.drop l.taken).drop size) = (framing lanes few).encodeAll left := by
    rw [← List.append_assoc, ← parts, List.append_assoc, List.take_append_drop]
    exact under
  obtain ⟨later, rfl, tail⟩ := Framing.cancel valid left_valid split
  have later_valid : (framing lanes few).AllValid later := fun f mem => left_valid f (List.mem_append_right _ mem)
  rcases fails with bad | ⟨f, behind, scanned, full⟩
  · have encoded : (framing lanes few).Encoded rest := ⟨later, later_valid, _, tail⟩
    exact encoded.not_bad (fun back failed => scan_bad back failed) bad
  · obtain ⟨fits, same⟩ := scan_sound scanned
    have one : (framing lanes few).encodeAll [f] ++ (behind ++ (l.sent.drop l.taken).drop size) = (framing lanes few).encodeAll later := by
      rw [Framing.encodeAll_cons, Framing.encodeAll_nil, List.append_nil, ← tail, same, List.append_assoc]
      rfl
    obtain ⟨others, rfl, -⟩ := Framing.cancel (Framing.allValid_cons.mpr ⟨fits, .nil⟩) later_valid one
    have front := emitted.front f.lane
    have most := sizes_prefix front
    have limit := room f.lane
    have both := (delivered.live receiving).2.2 f.lane
    rw [payloads_append, payloads_append, ← both] at most
    unfold Lane.readableLength at full
    rw [pushed_lanes delivered.count valid] at full
    have first : payloads ([f] ++ others) f.lane = f.payload :: payloads others f.lane := by
      rw [List.singleton_append, payloads_cons, if_pos rfl]
    rw [first] at most
    dsimp only at full
    simp only [sizes_append] at most full
    have head : sizes (f.payload :: payloads others f.lane) = f.payload.length + sizes (payloads others f.lane) := by
      unfold sizes
      rw [List.map_cons, List.sum_cons]
    omega

theorem write_open {s : Sender} {data : Bytes} (live : s.ended = false) (some : data ≠ []) (small : data.length ≤ maxFrame)
    (room : (s.lanes.getD id ⟨[], 0⟩).queued + data.length ≤ maxQueued)
    (few : (s.lanes.getD id ⟨[], 0⟩).frames.length < maxQueuedFrames) : (s.write id data).ended = false := by
  unfold Sender.write
  dsimp only
  rw [if_neg]
  · exact live
  · rw [live]
    rintro (ended | empty | large | full | many)
    · cases ended
    · exact some empty
    all_goals omega

end Links

section Streams
variable {lanes : Nat} {few : lanes ≤ 256} {r : Receiver} {inputs : List Input}

def Input.bytes : Input → Bytes
  | .data chunk => chunk
  | _ => []

def received (inputs : List Input) : Bytes := inputs.flatMap Input.bytes

theorem received_append {input : Input} : received (inputs ++ [input]) = received inputs ++ input.bytes := by
  simp [received]

theorem run_delivered (few : lanes ≤ 256) (run : Runs Receives (.start lanes) inputs r) :
    ∃ frames, Delivered few (received inputs) frames r ∧ (.finish ∈ inputs → r.ended = true) := by
  apply run.history fun inputs r => ∃ frames, Delivered few (received inputs) frames r ∧ (.finish ∈ inputs → r.ended = true)
  · exact ⟨[], start_delivered few, fun mem => absurd mem List.not_mem_nil⟩
  intro inputs r input t ⟨frames, delivered, finished⟩ h
  unfold Receives Receiver.perform at h
  rw [received_append]
  cases input with
  | data chunk =>
    dsimp only at h
    split at h
    case isFalse => cases h
    cases h
    obtain ⟨more, delivered'⟩ := delivered.data chunk
    refine ⟨_, delivered', fun mem => ?_⟩
    have ended := finished (by simpa using mem)
    unfold Receiver.data
    rw [if_pos ended]
    exact ended
  | consume id =>
    dsimp only at h
    split at h
    case isFalse => cases h
    rename_i inside
    cases h
    refine ⟨frames, ?_, fun mem => ?_⟩
    · rw [show (Input.consume id).bytes = [] from rfl, List.append_nil]
      exact delivered.consume inside
    · rw [ended_consume]
      exact finished (by simpa using mem)
  | finish =>
    cases h
    exact ⟨frames, delivered.close [], fun _ => rfl⟩

theorem Delivered.rest {stream : Bytes} {frames : List Frame} (d : Delivered few stream frames r) (live : r.ended = false)
    (other : ¬ (framing lanes few).Encoded stream) :
    ∃ rest, stream = (framing lanes few).encodeAll frames ++ rest ∧ rest.length < headerBytes := by
  obtain ⟨same, waiting, -⟩ := d.live live
  refine ⟨r.buffer, same, ?_⟩
  rcases scan_more waiting with short | ⟨f, valid, -, more, part⟩
  · exact short
  · refine absurd ?_ other
    rw [same]
    refine Framing.Encoded.cons d.valid ⟨[f], Framing.allValid_cons.mpr ⟨valid, .nil⟩, more, ?_⟩
    rw [Framing.encodeAll_cons, Framing.encodeAll_nil, List.append_nil]
    exact part

end Streams

section Roles

theorem few_lanes (role : Role) : (laneSets role).length ≤ 256 := by
  cases role <;> decide

def roleFrames (role : Role) : Framing UInt8 Frame := framing (laneSets role).length (few_lanes role)

/-- Every lane is read as it was written, and other streams deliver only the whole frames at their front. -/
theorem lanes_round_trip (role : Role) :
    (∀ labels l, Runs Step (.start (laneSets role).length) labels l →
      (∀ id, (l.receiver.lane id).read.IsPrefix (writes labels id)) ∧
      (l.sender.ended = false → l.receiver.ended = false →
        (∃ left waiting, (roleFrames role).AllValid left ∧
          l.receiver.buffer ++ l.sent.drop l.taken = (roleFrames role).encodeAll left ∧ AllHold waiting l.sender.lanes ∧
          ∀ id, writes labels id = (l.receiver.lane id).read ++ (l.receiver.lane id).chunks ++ payloads left id ++ waiting id) ∧
        ((∀ q ∈ l.sender.lanes, q.frames = []) → l.taken = l.sent.length →
          ∀ id, id < (laneSets role).length → (l.receiver.lane id).chunks = [] → (l.receiver.lane id).read = writes labels id)) ∧
      (∀ size m, Step l (.transfer size) m → l.receiver.ended = false →
        (∀ id, sizes (writes labels id) ≤ sizes (l.receiver.lane id).read + maxQueued) → m.receiver.ended = false) ∧
      (∀ id data m, Step l (.write id data) m → l.sender.ended = false → data ≠ [] → data.length ≤ maxFrame →
        (l.sender.lanes.getD id ⟨[], 0⟩).queued + data.length ≤ maxQueued →
        (l.sender.lanes.getD id ⟨[], 0⟩).frames.length < maxQueuedFrames → m.sender.ended = false)) ∧
    ∀ inputs r, Runs Receives (.start (laneSets role).length) inputs r →
      ∃ done, (roleFrames role).AllValid done ∧ ((roleFrames role).encodeAll done).IsPrefix (received inputs) ∧
        (∀ id, (r.lane id).read.IsPrefix (payloads done id)) ∧
        (r.ended = false → (∀ id, (r.lane id).read ++ (r.lane id).chunks = payloads done id) ∧
          (¬ (roleFrames role).Encoded (received inputs) →
            ∃ rest, received inputs = (roleFrames role).encodeAll done ++ rest ∧ rest.length < headerBytes)) ∧
        (.finish ∈ inputs → r.ended = true) := by
  constructor
  · intro labels l run
    have carried : Carried (few_lanes role) labels l := run_carried run
    refine ⟨carried.read, fun sending receiving => ⟨carried.account sending receiving, ?_⟩, ?_, ?_⟩
    · intro flushed arrived id inside read
      obtain ⟨frames, emitted⟩ := carried.emitted
      exact carried.all sending receiving flushed arrived (emitted.count ▸ inside) read
    · intro size m h receiving room
      exact carried.transfer h receiving room
    · intro id data m h live some small room few
      unfold Step Link.perform at h
      dsimp only at h
      split at h
      case isFalse => cases h
      cases h
      exact write_open live some small room few
  · intro inputs r run
    obtain ⟨done, delivered, finished⟩ := run_delivered (few_lanes role) run
    refine ⟨done, delivered.valid, delivered.front, delivered.read, fun live => ⟨(delivered.live live).2.2, ?_⟩, finished⟩
    exact fun other => delivered.rest live other

def sample : List Label :=
  [.write 1 [7, 8], .write 0 [9], .flush 5, .transfer 4, .transfer 17, .consume 0, .consume 1]

def sampleEnd : Link := (sample.foldlM Link.perform (.start 2)).getD (.start 2)

theorem sample_runs : Runs Step (.start 2) sample sampleEnd := by
  have run : Runs Step (.start 2) (sample.map id) sampleEnd := Runs.of_foldlM Link.perform id (fun _ _ _ h => h) sample (by decide +kernel)
  rwa [List.map_id] at run

theorem sample_round_trip : Runs Step (.start 2) sample sampleEnd ∧ (sampleEnd.receiver.lane 1).read = [[7, 8]] := by
  have facts := ((lanes_round_trip .native).1 sample sampleEnd sample_runs).2.1
  have all := (facts (by decide +kernel) (by decide +kernel)).2 (by decide +kernel) (by decide +kernel)
  exact ⟨sample_runs, all 1 (by decide) (by decide +kernel)⟩

/-- One byte of no header leaves the link open. -/
theorem header_awaits : ¬ (roleFrames .native).Encoded (received [.data [0]]) ∧
    ∃ r, Runs Receives (.start (laneSets .native).length) [.data [0]] r ∧ r.ended = false := by
  refine ⟨?_, _, .one rfl, by decide +kernel⟩
  rintro ⟨frames, valid, more, same⟩
  cases frames with
  | nil => cases same
  | cons f frames => cases same

end Roles

end RssMdmAgent.PrivateLink
