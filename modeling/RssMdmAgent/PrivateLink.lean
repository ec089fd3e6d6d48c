import RssMdmAgent.StreamFraming
import RssMdmAgent.TransitionRuns

set_option autoImplicit false

/-! # The private link between two processes: lanes of frames on one pipe -/

namespace RssMdmAgent.PrivateLink
open StreamFraming TransitionRuns

abbrev Bytes := List UInt8

def magic : Bytes := [82, 83, 83, 1]

def headerBytes : Nat := 9

def maxFrame : Nat := 524288

def maxQueued : Nat := 1048576

def maxQueuedFrames : Nat := 64

inductive Role where
  | native | worker

def laneSets : Role → List String
  | .native => ["native", "execution"]
  | .worker => ["control", "tools", "events"]

structure Frame where
  lane : Nat
  payload : Bytes
  deriving DecidableEq

def writeUInt32BE (n : Nat) : Bytes :=
  [UInt8.ofNat (n / 16777216), UInt8.ofNat (n / 65536), UInt8.ofNat (n / 256), UInt8.ofNat n]

def readUInt32BE : Bytes → Nat
  | a :: b :: c :: d :: _ => a.toNat * 16777216 + b.toNat * 65536 + c.toNat * 256 + d.toNat
  | _ => 0

def Frame.encode (f : Frame) : Bytes :=
  magic ++ UInt8.ofNat f.lane :: writeUInt32BE f.payload.length ++ f.payload

/-- The front of a buffer: a header is checked once all of it has come. -/
def scan (lanes : Nat) (buffer : Bytes) : Scan UInt8 Frame :=
  if buffer.length < headerBytes then .more
  else if buffer.take 4 ≠ magic then .bad
  else
    let id := ((buffer.drop 4).headD 0).toNat
    let size := readUInt32BE (buffer.drop 5)
    if lanes ≤ id ∨ size = 0 ∨ maxFrame < size then .bad
    else if buffer.length < size + headerBytes then .more
    else .frame ⟨id, (buffer.drop headerBytes).take size⟩ (buffer.drop (size + headerBytes))

structure Queue where
  frames : List Bytes
  queued : Nat
  deriving DecidableEq

structure Sender where
  ended : Bool
  waiting : Bool
  lanes : List Queue
  deriving DecidableEq

def Sender.close (s : Sender) : Sender := { s with ended := true, lanes := s.lanes.map fun _ => ⟨[], 0⟩ }

def Sender.write (s : Sender) (id : Nat) (data : Bytes) : Sender :=
  let q := s.lanes.getD id ⟨[], 0⟩
  if s.ended ∨ data = [] ∨ maxFrame < data.length ∨ maxQueued < q.queued + data.length ∨ maxQueuedFrames ≤ q.frames.length then
    s.close
  else { s with lanes := s.lanes.set id ⟨q.frames ++ [Frame.encode ⟨id, data⟩], q.queued + data.length⟩ }

def pop : List Queue → Option (Bytes × List Queue)
  | [] => none
  | ⟨frame :: frames, queued⟩ :: rest => some (frame, ⟨frames, queued - (frame.length - headerBytes)⟩ :: rest)
  | ⟨[], queued⟩ :: rest => (pop rest).map fun next => (next.1, ⟨[], queued⟩ :: next.2)

/-- Frames are written until none is left or the output is full, which it is after some of them. -/
def flushLoop : Nat → List Queue → Bytes × List Queue × Bool
  | 0, lanes => match pop lanes with
    | none => ([], lanes, false)
    | some (frame, rest) => (frame, rest, true)
  | room + 1, lanes => match pop lanes with
    | none => ([], lanes, false)
    | some (frame, rest) => (frame ++ (flushLoop room rest).1, (flushLoop room rest).2)

def Sender.flush (s : Sender) (room : Nat) : Sender × Bytes :=
  if s.ended ∨ s.waiting then (s, [])
  else
    let r := flushLoop room s.lanes
    ({ s with lanes := r.2.1, waiting := r.2.2 }, r.1)

def Sender.drain (s : Sender) (room : Nat) : Sender × Bytes := { s with waiting := false }.flush room

structure Lane where
  chunks : List Bytes
  read : List Bytes
  deriving DecidableEq

def sizes (list : List Bytes) : Nat := (list.map List.length).sum

def Lane.readableLength (lane : Lane) : Nat := sizes lane.chunks

def Lane.push (lane : Lane) (data : Bytes) : Lane := { lane with chunks := lane.chunks ++ [data] }

def Lane.consume (lane : Lane) : Lane :=
  match lane.chunks with
  | [] => lane
  | first :: rest => ⟨rest, lane.read ++ [first]⟩

structure Receiver where
  ended : Bool
  buffer : Bytes
  lanes : List Lane
  deriving DecidableEq

def Receiver.lane (r : Receiver) (id : Nat) : Lane := r.lanes.getD id ⟨[], []⟩

def Receiver.close (r : Receiver) : Receiver := ⟨true, [], r.lanes.map fun lane => { lane with chunks := [] }⟩

def Receiver.push (r : Receiver) (f : Frame) : Receiver :=
  { r with lanes := r.lanes.set f.lane ((r.lane f.lane).push f.payload) }

theorem scan_shorter {lanes : Nat} {buffer rest : Bytes} {f : Frame} (h : scan lanes buffer = .frame f rest) :
    rest.length < buffer.length := by
  unfold scan at h
  split at h
  · cases h
  split at h
  · cases h
  dsimp only at h
  split at h
  · cases h
  split at h
  · cases h
  · rename_i long _ _ _
    injection h with _ same
    rw [← same, List.length_drop]
    unfold headerBytes at *
    omega

/-- Whole frames are taken from the buffer, until it fails or more has to come. -/
def Receiver.loop (r : Receiver) : Receiver :=
  match _h : scan r.lanes.length r.buffer with
  | .more => r
  | .bad => r.close
  | .frame f rest =>
    if maxQueued < (r.lane f.lane).readableLength + f.payload.length then r.close
    else Receiver.loop { r.push f with buffer := rest }
termination_by r.buffer.length
decreasing_by exact scan_shorter ‹_›

def Receiver.data (r : Receiver) (chunk : Bytes) : Receiver :=
  if r.ended then r
  else if maxFrame * 3 < r.buffer.length + chunk.length then r.close
  else { r with buffer := r.buffer ++ chunk }.loop

def Receiver.consume (r : Receiver) (id : Nat) : Receiver :=
  if r.ended then r else { r with lanes := r.lanes.set id (r.lane id).consume }

/-- The two ends, the bytes that one has written and how many of them the other has taken. -/
structure Link where
  sender : Sender
  sent : Bytes
  taken : Nat
  receiver : Receiver
  deriving DecidableEq

def Receiver.start (lanes : Nat) : Receiver := ⟨false, [], List.replicate lanes ⟨[], []⟩⟩

def Link.start (lanes : Nat) : Link :=
  ⟨⟨false, false, List.replicate lanes ⟨[], 0⟩⟩, [], 0, .start lanes⟩

inductive Label where
  | write (id : Nat) (data : Bytes)
  | flush (room : Nat)
  | drain (room : Nat)
  | transfer (size : Nat)
  | consume (id : Nat)
  | closeSender
  | closeReceiver
  deriving DecidableEq

def chunkSize (size : Nat) : Bool := decide (1 ≤ size) && decide (size ≤ maxFrame + headerBytes)

def Link.perform (l : Link) : Label → Option Link
  | .write id data => if id < l.sender.lanes.length then some { l with sender := l.sender.write id data } else none
  | .flush room =>
    let r := l.sender.flush room
    some { l with sender := r.1, sent := l.sent ++ r.2 }
  | .drain room =>
    let r := l.sender.drain room
    some { l with sender := r.1, sent := l.sent ++ r.2 }
  | .transfer size =>
    if chunkSize size && decide (l.taken + size ≤ l.sent.length) then
      some { l with taken := l.taken + size, receiver := l.receiver.data ((l.sent.drop l.taken).take size) }
    else none
  | .consume id => if id < l.receiver.lanes.length then some { l with receiver := l.receiver.consume id } else none
  | .closeSender => some { l with sender := l.sender.close }
  | .closeReceiver => some { l with receiver := l.receiver.close }

def Step (l : Link) (label : Label) (m : Link) : Prop := l.perform label = some m

inductive Input where
  | data (chunk : Bytes)
  | consume (id : Nat)
  | finish
  deriving DecidableEq

def Receiver.perform (r : Receiver) : Input → Option Receiver
  | .data chunk => if chunkSize chunk.length then some (r.data chunk) else none
  | .consume id => if id < r.lanes.length then some (r.consume id) else none
  | .finish => some r.close

def Receives (r : Receiver) (input : Input) (t : Receiver) : Prop := r.perform input = some t

end RssMdmAgent.PrivateLink
