import RssMdmAgent.TransitionRuns
import Mathlib.Logic.Function.Basic

set_option autoImplicit false

/-! # Fences between revoked login sessions and runner delivery -/

namespace RssMdmAgent.SessionFences
open TransitionRuns

abbrev Id := String

structure SessionKey where
  subject : String
  binding : Id
  deriving DecidableEq, Repr

structure ContextRef where
  id : Id
  generation : Id
  deriving DecidableEq, Repr

structure NativeSession where
  user : Option String
  generation : Id
  expiresAt : Nat
  deriving DecidableEq, Repr

structure NativeContext where
  session : NativeSession
  scope : SessionKey
  epoch : Nat
  context : ContextRef
  deriving DecidableEq, Repr

abbrev Contexts := List (String × NativeContext)

def insertContext (key : String) (bound : NativeContext) : Contexts → Contexts
  | [] => [(key, bound)]
  | (other, old) :: rest =>
    if key = other then (key, bound) :: rest
    else if key < other then (key, bound) :: (other, old) :: rest
    else (other, old) :: insertContext key bound rest

inductive Error where
  | denied
  | identity
  | expired
  | protocol
  | capacity
  deriving DecidableEq, Repr

inductive Platform where
  | windows
  | macos
  | linux
  deriving DecidableEq, Repr

structure OsSession where
  device : Id
  platform : Platform
  subject : Id
  session : Id
  deriving DecidableEq, Repr

def OsSession.scope (login : OsSession) : SessionKey := ⟨login.subject, login.session⟩

inductive Trigger where
  | automatic
  | human (login : OsSession)
  | ai (login : OsSession) (context : ContextRef)
  deriving DecidableEq, Repr

inductive Access where
  | device
  | user (sessionBinding : ContextRef)
  deriving DecidableEq, Repr

inductive Action where
  | policy (access : Access) (runId : Option Id)
  | other
  deriving DecidableEq, Repr

structure BackendRequest where
  trigger : Trigger
  action : Action
  expiresAt : Nat
  deriving DecidableEq, Repr

/-- What the owner of the device holds; the fences are shared with the native callbacks. -/
structure Core where
  fences : SessionKey → Nat
  contexts : Contexts
  revoked : Bool
  stopping : Bool
  device : Id
  platform : Platform

section Lookups
variable (core : Core)

/-- The context that a caller's origin names is bound for its subject and session. -/
def requireOriginContext (now : Nat) (subject session : Id) (context : ContextRef) : Except Error Unit :=
  match core.contexts.find? fun row => (subject ++ ":").isPrefixOf row.1 && row.2.scope.binding = session && row.2.context = context with
  | none => .error .identity
  | some (_, bound) =>
    if core.fences bound.scope ≠ bound.epoch then .error .identity
    else if bound.session.expiresAt ≤ now then .error .expired
    else .ok ()

def policyContext (now : Nat) (record : BackendRequest) : Except Error (Option NativeContext) :=
  if core.revoked ∨ core.stopping then .error .denied
  else match record.trigger with
  | .automatic => .error .identity
  | .human login | .ai login _ =>
    if login.device ≠ core.device ∨ login.platform ≠ core.platform then .error .identity
    else match record.action with
    | .other => .error .protocol
    | .policy .device _ => .ok none
    | .policy (.user sessionBinding) _ =>
      match core.contexts.find? fun row => row.2.scope = login.scope && row.2.context = sessionBinding with
      | none => .error .identity
      | some (_, current) =>
        if core.fences login.scope ≠ current.epoch then .error .identity
        else if current.session.expiresAt ≤ now then .error .expired
        else .ok (some current)

def currentPolicyContext (now later : Nat) (record : BackendRequest) : Except Error (Option NativeContext) :=
  match policyContext core now record with
  | .error e => .error e
  | .ok context => if record.expiresAt ≤ later then .error .expired else .ok context

/-- The session whose fence a delivery has to pass, and the epoch it has to find there. -/
def policyFence (now later : Nat) (record : BackendRequest) : Except Error (Option (SessionKey × Nat)) :=
  match record.action with
  | .policy _ (some _) => .ok none
  | .policy _ none =>
    match currentPolicyContext core now later record with
    | .error e => .error e
    | .ok context => .ok (context.map fun bound => (bound.scope, bound.epoch))
  | .other =>
    match record.trigger with
    | .ai login context =>
      match requireOriginContext core now login.subject login.session context with
      | .error e => .error e
      | .ok () =>
        match core.contexts.find? fun row => row.2.context = context with
        | none => .error .identity
        | some (_, bound) => .ok (some (bound.scope, bound.epoch))
    | _ => .ok none

/-- A native caller that binds its context. -/
structure Caller where
  subject : String
  session : Nat
  binding : Id
  fenceEpoch : Nat
  deriving DecidableEq, Repr

def Caller.scope (c : Caller) : SessionKey := ⟨c.subject, c.binding⟩

def peerKey (c : Caller) : String := c.subject ++ ":" ++ toString c.session ++ ":" ++ c.binding

/-- A caller keeps its context for the same generation and user, and gets a new one for a new generation. -/
def contextFor (now epoch : Nat) (value : NativeSession) (expected : Option Id) (old : Option NativeContext) :
    Option ContextRef :=
  match expected, old with
  | some id, some old =>
    if old.context.id = id ∧ old.epoch = epoch ∧ now < old.session.expiresAt ∧
        old.session.generation = value.generation ∧ old.session.user = value.user then some old.context
    else none
  | none, some old =>
    if old.epoch ≠ epoch ∧ old.session.generation = value.generation ∧ old.session.user = value.user then some old.context
    else if old.epoch ≠ epoch ∧ old.session.generation ≠ value.generation then some ⟨value.generation, value.generation⟩
    else if old.epoch = epoch ∧ old.session.generation = value.generation ∧ old.session.user = value.user then some old.context
    else none
  | none, none => some ⟨value.generation, value.generation⟩
  | some _, none => none

def bindContext (now : Nat) (c : Caller) (value : NativeSession) (expected : Option Id) : Except Error (Core × ContextRef) :=
  if value.expiresAt ≤ now then .error .identity
  else if (core.revoked ∧ value.user.isSome) ∨ core.stopping then .error .denied
  else if 32 ≤ core.contexts.length ∧ (core.contexts.lookup (peerKey c)).isNone then .error .capacity
  else if core.fences c.scope ≠ c.fenceEpoch then .error .identity
  else match contextFor now c.fenceEpoch value expected (core.contexts.lookup (peerKey c)) with
  | none => .error .identity
  | some context =>
    .ok ({ core with contexts := insertContext (peerKey c) ⟨value, c.scope, c.fenceEpoch, context⟩ core.contexts }, context)

end Lookups

/-! ## The owner and the native callbacks -/

inductive Phase where
  | idle
  | fenced (record : BackendRequest) (admission : Option (SessionKey × Nat))
  | delivering (record : BackendRequest) (admission : Option (SessionKey × Nat))
  deriving DecidableEq, Repr

def Phase.holds : Phase → Bool
  | .delivering _ admission => admission.isSome
  | _ => false

structure System where
  core : Core
  phase : Phase
  calls : List SessionKey

/-- A call of a revoke, its return, and what the owner does. -/
inductive Label where
  | call (key : SessionKey)
  | revoked (key : SessionKey)
  | rejected (key : SessionKey)
  | bound (caller : Caller) (value : NativeSession) (expected : Option Id) (now : Nat) (context : ContextRef)
  | fence (record : BackendRequest) (now later : Nat)
  | letIn
  | finish
  | host (revoked stopping : Bool)
  deriving DecidableEq, Repr

def maxEpoch : Nat := 2 ^ 64 - 1

def System.perform (s : System) : Label → Option System
  | .call key => some { s with calls := key :: s.calls }
  | .revoked key =>
    if key ∈ s.calls ∧ s.phase.holds = false ∧ s.core.fences key < maxEpoch then
      some { s with
        calls := s.calls.erase key
        core := { s.core with fences := Function.update s.core.fences key (s.core.fences key + 1) } }
    else none
  | .rejected key => if key ∈ s.calls then some { s with calls := s.calls.erase key } else none
  | .bound caller value expected now context =>
    if s.phase = .idle then
      match bindContext s.core now caller value expected with
      | .ok (core, issued) => if issued = context then some { s with core := core } else none
      | .error _ => none
    else none
  | .fence record now later =>
    if s.phase = .idle then
      match policyFence s.core now later record with
      | .ok admission => some { s with phase := .fenced record admission }
      | .error _ => some s
    else none
  | .letIn =>
    match s.phase with
    | .fenced record none => some { s with phase := .delivering record none }
    | .fenced record (some (key, epoch)) =>
      if s.core.fences key = epoch then some { s with phase := .delivering record (some (key, epoch)) }
      else some { s with phase := .idle }
    | _ => none
  | .finish =>
    match s.phase with
    | .delivering _ _ => some { s with phase := .idle }
    | _ => none
  | .host revoked stopping => some { s with core := { s.core with revoked := revoked, stopping := stopping } }

def Step (s : System) (label : Label) (t : System) : Prop := s.perform label = some t

def System.start (device : Id) (platform : Platform) : System := ⟨⟨fun _ => 0, [], false, false, device, platform⟩, .idle, []⟩

end RssMdmAgent.SessionFences
