import RssMdmAgent.ContentTransfers
import RssMdmAgent.CrashPrograms

set_option autoImplicit false

/-! # Resumed downloads into partial files, and their cleanup -/

namespace RssMdmAgent.ContentDownloads
open CrashPrograms TransitionRuns
open ContentTransfers (Error Stage)

abbrev Bytes := List UInt8

inductive Kind where
  | blob | part
  deriving DecidableEq

inductive Event where
  | changed
  | chunk (bytes : Bytes)
  | failed (error : Error)

/-- The head and the body of a reply. -/
structure Response where
  status : Nat
  contentEncoding : Option String
  etag : Option String
  contentLength : Option Nat
  contentRange : Option String
  body : List Event

structure Sent where
  changes : Nat
  outcome : Except Error Response

section Calls
variable (N : Type)

inductive Call where
  | blobExists (n : N)
  | openBlob (n : N)
  | partialExists (n : N)
  | create (n : N)
  | openPartial (n : N)
  | lock (n : N)
  | size (n : N)
  | active (n : N)
  | sync (n : N)
  | unlock (n : N)
  | publish (n : N) (bytes : Nat) (stage : Stage)
  | truncate (n : N)
  | used
  | content (n : N)
  | deadline
  | send (n : N) (range : Option Nat)
  | refusal
  | write (n : N) (position : Nat) (bytes : Bytes)
  | replace (n : N)
  | reopen (n : N)
  | rootExists
  | entries
  | referenced (n : N)
  | openFile (n : N) (kind : Kind)
  | tryLock (n : N) (kind : Kind)
  | remove (n : N) (kind : Kind)
  | forget (n : N)

variable {N}

@[reducible] def Reply : Call N → Type
  | .blobExists _ | .partialExists _ | .active _ | .rootExists | .referenced _ | .tryLock _ _ => Bool
  | .openBlob _ | .content _ => Bytes
  | .size _ | .used | .deadline => Nat
  | .send _ _ => Sent
  -- a name that is no content name stops the sweep
  | .entries => List (Option (N × Kind))
  | _ => Unit

abbrev Download (N α : Type) := Work Error (@Reply N) α

def request (c : Call N) : Download N (Reply c) := ask c

end Calls

section Downloads
variable {N Digest : Type} [DecidableEq Digest] (digest : Bytes → Digest) (etag : Digest → String)

def pause (n : N) (bytes : Nat) : Download N Unit := do
  request (.sync n)
  request (.unlock n)
  request (.publish n bytes .paused)
  .fail .transferPaused

/-- The transfers are asked once for every change and once before the reply is taken. -/
def awaitResponse (n : N) (offset : Nat) : Nat → Download N Unit
  | 0 => do
    let going ← request (.active n)
    if going then .ok () else pause n offset
  | changes + 1 => do
    let going ← request (.active n)
    if going then awaitResponse n offset changes else pause n offset

def stream (n : N) (length : Nat) : Nat → List Event → Download N Unit
  | count, [] => do
    let going ← request (.active n)
    if going then
      request (.sync n)
      if count ≠ length then .fail .untrusted else .ok ()
    else pause n count
  | count, .changed :: rest => do
    let going ← request (.active n)
    if going then stream n length count rest else pause n count
  | count, .failed error :: _ => do
    let going ← request (.active n)
    if going then .fail error else pause n count
  | count, .chunk bytes :: rest => do
    let going ← request (.active n)
    if going then
      if 2 ^ 64 ≤ count + bytes.length then .fail .capacity
      else if length < count + bytes.length then .fail .untrusted
      else do
        request (.write n count bytes)
        request (.publish n (count + bytes.length) .downloading)
        stream n length (count + bytes.length) rest
    else pause n count

def rangeText (start length : Nat) : String :=
  "bytes " ++ toString start ++ "-" ++ toString (length - 1) ++ "/" ++ toString length

def Response.start (response : Response) (offset : Nat) : Nat := if response.status = 206 then offset else 0

def accepted (length : Nat) (sha256 : Digest) (offset : Nat) (response : Response) : Except Error Nat :=
  if response.status ≠ 206 ∧ response.status ≠ 200 then .error .protocol
  else if response.contentEncoding.any (fun v => decide (v ≠ "identity")) ∨ response.etag ≠ some (etag sha256) ∨
      response.contentLength ≠ some (length - response.start offset) then .error .untrusted
  else if response.status = 206 ∧ response.contentRange ≠ some (rangeText (response.start offset) length) then .error .untrusted
  else .ok (response.start offset)

def rewind (n : N) (start : Nat) : Download N Unit := if start = 0 then request (.truncate n) else .ok ()

def receive (n : N) (length : Nat) (sha256 : Digest) (offset : Nat) (response : Response) : Download N Unit :=
  if response.status = 416 then .fail .protocol
  else if ¬ (200 ≤ response.status ∧ response.status < 300) then do
    request .refusal
    .fail .protocol
  else match accepted etag length sha256 offset response with
    | .error error => .fail error
    | .ok start => do
      rewind n start
      request (.publish n start .downloading)
      stream n length start response.body

def fetch (n : N) (length : Nat) (sha256 : Digest) (offset : Nat) : Download N Unit := do
  let remaining ← request .deadline
  if remaining = 0 then .fail .expired
  else do
    let sent ← request (.send n (if 0 < offset then some offset else none))
    awaitResponse n offset sent.changes
    match sent.outcome with
    | .error error => .fail error
    | .ok response => receive etag n length sha256 offset response

def cached (n : N) (length : Nat) (sha256 : Digest) : Download N Bool := do
  let there ← request (.blobExists n)
  if there then
    let bytes ← request (.openBlob n)
    if bytes.length ≠ length ∨ digest bytes ≠ sha256 then .fail .untrusted else .ok true
  else .ok false

def openOrCreate (n : N) (there : Bool) : Download N Unit :=
  if there then request (.openPartial n)
  else do
    request (.create n)
    request (.openPartial n)

def lease (n : N) : Download N Nat := do
  let there ← request (.partialExists n)
  openOrCreate n there
  request (.lock n)
  request (.size n)

def trim (n : N) (length offset : Nat) : Download N Nat :=
  if length < offset then do
    request (.truncate n)
    .ok 0
  else .ok offset

/-- A whole partial file with another digest starts again too. -/
def prepare (limit : Nat) (n : N) (length : Nat) (sha256 : Digest) (offset : Nat) : Download N Nat := do
  let offset ← trim n length offset
  let used ← request .used
  if limit < used + (length - offset) then .fail .capacity
  else if offset = length then do
    let bytes ← request (.content n)
    if digest bytes ≠ sha256 then do
      request (.truncate n)
      .ok 0
    else .ok offset
  else .ok offset

/-- The whole partial file becomes the content, or is emptied. -/
def complete (n : N) (length : Nat) (sha256 : Digest) : Download N Unit := do
  request (.publish n length .verifying)
  let bytes ← request (.content n)
  if digest bytes ≠ sha256 then do
    request (.publish n 0 .failed)
    request (.truncate n)
    request (.sync n)
    .fail .untrusted
  else do
    request (.sync n)
    request (.replace n)
    request (.unlock n)
    request (.reopen n)
    request (.publish n length .complete)

def fetchRest (n : N) (length : Nat) (sha256 : Digest) (offset : Nat) : Download N Unit :=
  if offset < length then fetch etag n length sha256 offset else .ok ()

def download (limit : Nat) (n : N) (length : Nat) (sha256 : Digest) : Download N Unit := do
  let found ← cached digest n length sha256
  if found then request (.publish n length .complete)
  else do
    let offset ← lease n
    let going ← request (.active n)
    if going then
      let offset ← prepare digest limit n length sha256 offset
      fetchRest etag n length sha256 offset
      complete digest n length sha256
    else pause n offset

/-- Files that no task references go, up to the limit. -/
def sweep (limit : Nat) : Nat → List (Option (N × Kind)) → Download N Nat
  | removed, [] => .ok removed
  | removed, entry :: rest =>
    if removed = limit then .ok removed
    else match entry with
      | none => .fail .storage
      | some (n, kind) => do
        let referenced ← request (.referenced n)
        if referenced then sweep limit removed rest
        else do
          request (.openFile n kind)
          let locked ← request (.tryLock n kind)
          if locked then
            request (.remove n kind)
            request (.forget n)
            sweep limit (removed + 1) rest
          else sweep limit removed rest

def cleanup (limit : Nat) : Download N Nat :=
  if limit = 0 ∨ 128 < limit then .fail .configuration
  else do
    let there ← request .rootExists
    if there then
      let entries ← request .entries
      sweep limit 0 entries
    else .ok 0

end Downloads

/-! ## The content directory -/

structure Files where
  part : Option Bytes
  blob : Option Bytes

structure Content (N Task : Type) where
  files : N → Files
  refs : List (Task × N)
  wronged : List N

section Worlds
variable {N Task : Type} [DecidableEq N]

def Content.put (s : Content N Task) (n : N) (files : Files) : Content N Task :=
  { s with files := Function.update s.files n files }

def Content.setPart (s : Content N Task) (n : N) (bytes : Bytes) : Content N Task :=
  s.put n { s.files n with part := some bytes }

def Content.isReferenced (s : Content N Task) (n : N) : Bool := s.refs.any fun r => decide (r.2 = n)

def Files.without (f : Files) : Kind → Files
  | .blob => { f with blob := none }
  | .part => { f with part := none }

def Content.drop (s : Content N Task) (n : N) (kind : Kind) : Content N Task :=
  { s.put n ((s.files n).without kind) with wronged := if s.isReferenced n then s.wronged ++ [n] else s.wronged }

def Content.publish (s : Content N Task) (n : N) : Content N Task := s.put n ⟨none, (s.files n).part⟩

def overwrite (old : Bytes) (position : Nat) (bytes : Bytes) : Bytes :=
  old.take position ++ List.replicate (position - old.length) 0 ++ bytes ++ old.drop (position + bytes.length)

def tells {α : Type} (s : Content N Task) (fact : α → Prop) (reply : Except Error α) (t : Content N Task) : Prop :=
  t = s ∧ ∀ value, reply = .ok value → fact value

def changes (s after : Content N Task) (reply : Except Error Unit) (t : Content N Task) : Prop :=
  t = after ∨ (t = s ∧ reply ≠ .ok ())

def writes (s : Content N Task) (n : N) (position : Nat) (bytes : Bytes) (reply : Except Error Unit) (t : Content N Task) : Prop :=
  ∃ old k, (s.files n).part = some old ∧ t = s.setPart n (overwrite old position (bytes.take k)) ∧
    (reply = .ok () → k = bytes.length)

def serves (s : Content N Task) : (c : Call N) → Except Error (Reply c) → Content N Task → Prop
  | .blobExists n, reply, t => tells s (· = (s.files n).blob.isSome) reply t
  | .openBlob n, reply, t => tells s (fun bytes => (s.files n).blob = some bytes) reply t
  | .partialExists n, reply, t => tells s (· = (s.files n).part.isSome) reply t
  | .create n, reply, t => (s.files n).part = none ∧ changes s (s.setPart n []) reply t ∨ (t = s ∧ reply ≠ .ok ())
  | .openPartial n, reply, t => tells s (fun _ => (s.files n).part ≠ none) reply t
  | .size n, reply, t => tells s (fun k => ∃ p, (s.files n).part = some p ∧ k = p.length) reply t
  | .truncate n, reply, t => changes s (s.setPart n []) reply t
  | .content n, reply, t => tells s (fun bytes => (s.files n).part = some bytes) reply t
  | .write n position bytes, reply, t => writes s n position bytes reply t ∨ (t = s ∧ reply ≠ .ok ())
  | .replace n, reply, t => changes s (s.publish n) reply t
  | .referenced n, reply, t => tells s (· = s.isReferenced n) reply t
  | .remove n kind, reply, t => changes s (s.drop n kind) reply t
  | .lock _, _, t | .active _, _, t | .sync _, _, t | .unlock _, _, t | .publish _ _ _, _, t | .used, _, t | .deadline, _, t
  | .send _ _, _, t | .refusal, _, t | .reopen _, _, t | .rootExists, _, t | .entries, _, t | .openFile _ _, _, t
  | .tryLock _ _, _, t | .forget _, _, t => t = s

variable (N Task) in
def contentMachine : Machine (Fallible Error (@Reply N)) (Content N Task) := ⟨serves, fun _ _ => False⟩

inductive Job (Digest Task N : Type) where
  | download (length : Nat) (sha256 : Digest)
  | cleanup (limit : Nat)
  | reference (task : Task) (n : N)
  | release (task : Task)

def Lost (s t : Content N Task) : Prop :=
  (∀ n, (t.files n).blob = (s.files n).blob) ∧ t.refs = s.refs ∧ t.wronged = s.wronged

variable {Digest : Type} [DecidableEq Digest] (digest : Bytes → Digest) (etag : Digest → String) (limit : Nat)
  (name : Nat → Digest → N) [DecidableEq Task]

def detached {α : Type} (w : Download N α) : Program (Fallible Error (@Reply N)) Unit := Program.bind w fun _ => .done ()

def starts (s : Content N Task) : Job Digest Task N → Content N Task → Program (Fallible Error (@Reply N)) Unit → Prop
  | .download length sha256, t, p => Lost s t ∧ p = detached (download digest etag limit (name length sha256) length sha256)
  | .cleanup max, t, p => Lost s t ∧ p = detached (cleanup max)
  | .reference task n, t, p => t = { s with refs := (task, n) :: s.refs } ∧ p = .done ()
  | .release task, t, p => t = { s with refs := s.refs.filter fun r => decide (r.1 ≠ task) } ∧ p = .done ()

structure Exact (s : Content N Task) : Prop where
  blobs : ∀ length sha256 bytes, (s.files (name length sha256)).blob = some bytes → bytes.length = length ∧ digest bytes = sha256
  wronged : s.wronged = []

end Worlds

end RssMdmAgent.ContentDownloads
