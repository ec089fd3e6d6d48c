import RssMdmAgent.InstalledTrust
import RssMdmAgent.ContractPlan

set_option autoImplicit false

/-! # Installed trust only advances, and a refused document closes admission -/

namespace RssMdmAgent.InstalledTrust
open KeyedTable TrustDocuments TransitionRuns BigEndianNumbers
open ContractPlan (bind_ok)

variable {P : Primitives} {cfg : Config}

/-! ## What a verified document says -/

theorem crlBytes_canonical (number : Nat) : Canonical (crlBytes number) := by
  unfold crlBytes
  split
  · trivial
  · exact toBytes_canonical ‹_›

theorem currentCrl_canonical {der : Bytes} {value : RevocationList} {now : Int} {list : Crl} (h : currentCrl P der value now = .ok list) :
    Canonical list.watermark.number := by
  unfold currentCrl at h
  split at h
  · split at h
    · cases h
    split at h
    · cases h
    split at h
    · cases h
    cases h
    exact crlBytes_canonical _
  · cases h

theorem crl_canonical {der : Bytes} {signer : X509} {now : Int} {list : Crl} (h : crl P der signer now = .ok list) :
    Canonical list.watermark.number := by
  unfold crl at h
  split at h
  · cases h
  split at h
  · cases h
  obtain ⟨-, -, h⟩ := bind_ok.mp h
  split at h
  · cases h
  split at h
  · cases h
  exact currentCrl_canonical h

def Made (P : Primitives) (now : Int) (g : Issuer) (made : Generation) : Prop :=
  ∃ seen issuer root, generation P seen g now = .ok (made, issuer, root)

theorem generation_canonical {seen : List String} {g : Issuer} {now : Int} {made : Generation} {issuer root : X509}
    (h : generation P seen g now = .ok (made, issuer, root)) :
    Canonical made.crl.watermark.number ∧ Canonical made.rootCrl.watermark.number := by
  unfold generation at h
  obtain ⟨issuerDer, -, h⟩ := bind_ok.mp h
  obtain ⟨rootDer, -, h⟩ := bind_ok.mp h
  split at h
  · cases h
  obtain ⟨_, -, h⟩ := bind_ok.mp h
  obtain ⟨_, -, h⟩ := bind_ok.mp h
  obtain ⟨-, -, h⟩ := bind_ok.mp h
  obtain ⟨-, -, h⟩ := bind_ok.mp h
  obtain ⟨-, -, h⟩ := bind_ok.mp h
  obtain ⟨-, -, h⟩ := bind_ok.mp h
  obtain ⟨_, -, h⟩ := bind_ok.mp h
  obtain ⟨list, listed, h⟩ := bind_ok.mp h
  obtain ⟨_, -, h⟩ := bind_ok.mp h
  obtain ⟨rootList, rootListed, h⟩ := bind_ok.mp h
  cases h
  exact ⟨crl_canonical listed, crl_canonical rootListed⟩

def Numbered (t : Table String Watermark) : Prop := ∀ id w, t.lookup id = some w → Canonical w.number

theorem note_numbered {id : String} {watermark : Watermark} {t u : Table String Watermark} (numbered : Numbered t)
    (canonical : Canonical watermark.number) (h : note id watermark t = .ok u) : Numbered u := by
  unfold note at h
  split at h
  · cases h
  cases h
  intro other w found
  rcases lookup_insert_cases found with ⟨-, rfl⟩ | ⟨-, found⟩
  · exact canonical
  · exact numbered other w found

structure Built (P : Primitives) (now : Int) (issuers : List Issuer) (b : Building) : Prop where
  made : List.Forall₂ (Made P now) issuers b.generations
  numbered : Numbered b.watermarks

theorem addIssuer_built {now : Int} {issuers : List Issuer} {g : Issuer} {b b' : Building} (built : Built P now issuers b)
    (h : addIssuer P now b g = .ok b') : Built P now (issuers ++ [g]) b' := by
  unfold addIssuer at h
  split at h
  · cases h
  obtain ⟨⟨made, issuer, root⟩, generated, h⟩ := bind_ok.mp h
  obtain ⟨first, noted, h⟩ := bind_ok.mp h
  obtain ⟨second, rootNoted, h⟩ := bind_ok.mp h
  split at h
  · cases h
    obtain ⟨canonical, rootCanonical⟩ := generation_canonical generated
    exact ⟨List.rel_append built.made (.cons ⟨_, _, _, generated⟩ .nil),
      note_numbered (note_numbered built.numbered canonical noted) rootCanonical rootNoted⟩
  · cases h

theorem issuers_built {now : Int} : ∀ (rest done : List Issuer) (b b' : Building), Built P now done b →
    rest.foldlM (addIssuer P now) b = .ok b' → Built P now (done ++ rest) b'
  | [], done, b, b', built, h => by
    cases h
    rwa [List.append_nil]
  | g :: rest, done, b, b', built, h => by
    rw [List.foldlM_cons] at h
    obtain ⟨middle, added, h⟩ := bind_ok.mp h
    rw [List.append_cons]
    exact issuers_built rest _ middle b' (addIssuer_built built added) h

theorem new_built {document : Trust} {now : Int} {v : VerifiedTrust} (h : VerifiedTrust.new P document cfg now = .ok v) :
    v.document = document ∧ List.Forall₂ (Made P now) document.issuers v.generations ∧ Numbered v.watermarks := by
  unfold VerifiedTrust.new at h
  split at h
  · cases h
  obtain ⟨-, -, h⟩ := bind_ok.mp h
  split at h
  · cases h
  obtain ⟨b, folded, h⟩ := bind_ok.mp h
  cases h
  have built := issuers_built document.issuers [] _ _ ⟨.nil, fun id w found => by simp at found⟩ folded
  exact ⟨rfl, built.made, built.numbered⟩

/-! ## What advances -/

def Later (old new : Watermark) : Prop := old.thisUpdate ≤ new.thisUpdate ∧ (value old.number < value new.number ∨ old = new)

theorem Later.refl (w : Watermark) : Later w w := ⟨le_rfl, .inr rfl⟩

theorem Later.trans {a b c : Watermark} (first : Later a b) (second : Later b c) : Later a c := by
  refine ⟨first.1.trans second.1, ?_⟩
  rcases first.2 with less | rfl
  · rcases second.2 with more | rfl
    · exact .inl (less.trans more)
    · exact .inl less
  · exact second.2

structure Advances (P : Primitives) (s t : State) : Prop where
  document : ∀ d, s.document = some d → ∃ d', t.document = some d' ∧
    (d.revision < d'.revision ∨ (d.revision = d'.revision ∧ P.installationDigest d = P.installationDigest d'))
  watermarks : ∀ id w, s.watermarks.lookup id = some w → ∃ w', t.watermarks.lookup id = some w' ∧ Later w w'

theorem Advances.refl (s : State) : Advances P s s :=
  ⟨fun d found => ⟨d, found, .inr ⟨rfl, rfl⟩⟩, fun _ w found => ⟨w, found, .refl w⟩⟩

theorem Advances.trans {s t u : State} (first : Advances P s t) (second : Advances P t u) : Advances P s u := by
  constructor
  · intro d found
    obtain ⟨d', found, order⟩ := first.document d found
    obtain ⟨d'', found, order'⟩ := second.document d' found
    refine ⟨d'', found, ?_⟩
    rcases order with less | ⟨same, digest⟩
    · rcases order' with more | ⟨same', -⟩
      · exact .inl (less.trans more)
      · exact .inl (same' ▸ less)
    · rcases order' with more | ⟨same', digest'⟩
      · exact .inl (same ▸ more)
      · exact .inr ⟨same.trans same', digest.trans digest'⟩
  · intro id w found
    obtain ⟨w', found, later⟩ := first.watermarks id w found
    obtain ⟨w'', found, later'⟩ := second.watermarks id w' found
    exact ⟨w'', found, later.trans later'⟩

theorem recedes_later {new old : Watermark} (hn : Canonical new.number) (ho : Canonical old.number) (h : new.recedes old = false) :
    Later old new := by
  unfold Watermark.recedes at h
  rw [compareNumbers_eq hn ho] at h
  simp only [Bool.or_eq_false_iff, Bool.and_eq_false_iff, decide_eq_false_iff_not, not_lt, not_not] at h
  obtain ⟨⟨notLess, time⟩, same⟩ := h
  refine ⟨time, ?_⟩
  rcases Nat.lt_trichotomy (value old.number) (value new.number) with less | equal | more
  · exact .inl less
  · rw [equal, Nat.compare_eq_eq.mpr rfl] at same
    rcases same with wrong | same
    · cases wrong
    · exact .inr same.symm
  · rw [Nat.compare_eq_lt.mpr more] at notLess
    cases notLess

/-! ## What an operation does to the trust -/

structure Fixed (w u : World) : Prop where
  document : u.pki.document = w.pki.document
  watermarks : u.pki.watermarks = w.pki.watermarks
  blocked : u.pki.blocked = w.pki.blocked
  gate : w.pki.blocked = true → w.gate ≤ 0 → u.gate ≤ 0

theorem Fixed.refl (w : World) : Fixed w w := ⟨rfl, rfl, rfl, fun _ h => h⟩

theorem Fixed.trans {w u v : World} (first : Fixed w u) (second : Fixed u v) : Fixed w v :=
  ⟨second.document.trans first.document, second.watermarks.trans first.watermarks, second.blocked.trans first.blocked,
    fun blocked closed => second.gate (first.blocked.trans blocked) (first.gate blocked closed)⟩

theorem put_fixed {w : World} {s : State} (document : s.document = w.pki.document) (watermarks : s.watermarks = w.pki.watermarks)
    (blocked : s.blocked = w.pki.blocked) : ∀ written, Fixed w (put w s written)
  | .lost => .refl w
  | .stored | .unsure => ⟨document, watermarks, blocked, fun _ h => h⟩

theorem revoke_fixed (w : World) : Fixed w (revoke w) := ⟨rfl, rfl, rfl, fun _ _ => by show (-1 : Int) ≤ 0; decide⟩

theorem close_gate (w : World) : (close w).gate ≤ 0 := by
  show (if w.gate = -1 then -1 else 0) ≤ (0 : Int)
  split <;> decide

theorem close_fixed (w : World) : Fixed w (close w) := ⟨rfl, rfl, rfl, fun _ _ => close_gate w⟩

theorem identityFailure_fixed (w : World) : ∀ failure, Fixed w (identityFailure failure w)
  | .gone => revoke_fixed w
  | .expired => close_fixed w
  | .other => .refl w

theorem active_blocked {d : Device} {s : State} (blocked : s.blocked = true) (h : active P cfg d s = .ok ()) : False := by
  unfold active at h
  obtain ⟨-, -, h⟩ := bind_ok.mp h
  obtain ⟨now, -, h⟩ := bind_ok.mp h
  obtain ⟨-, -, h⟩ := bind_ok.mp h
  obtain ⟨v, verified, -⟩ := bind_ok.mp h
  unfold State.verified at verified
  rw [if_pos blocked] at verified
  cases verified

theorem runtimeReadiness_blocked {d : Device} {s : State} (blocked : s.blocked = true) : runtimeReadiness P cfg d s ≠ .ok () := by
  intro h
  obtain ⟨_, ready, _⟩ := bind_ok.mp h
  exact active_blocked blocked ready

theorem publish_fixed (d : Device) (w : World) : Fixed w (publishRuntimeGate P cfg d w) := by
  refine ⟨rfl, rfl, rfl, fun blocked _ => ?_⟩
  unfold publishRuntimeGate
  dsimp only
  split
  · decide
  · cases deadline : runtimeDeadline P cfg d w.pki with
    | error error => exact le_rfl
    | ok value =>
      obtain ⟨_, ready, _⟩ := bind_ok.mp deadline
      exact (active_blocked blocked ready).elim

theorem observePki_fixed (o : Observing) (target : Option Trust) (status : ObservationState) (reason : Option ObservationReason)
    (w : World) : Fixed w (observePki P o target status reason w).2 := by
  unfold observePki
  split
  · exact .refl w
  · rename_i s seen
    unfold observed at seen
    obtain ⟨⟨registration, generation⟩, -, seen⟩ := bind_ok.mp seen
    dsimp only at seen
    split at seen
    · cases seen
    obtain ⟨installed, -, seen⟩ := bind_ok.mp seen
    obtain ⟨now, -, seen⟩ := bind_ok.mp seen
    obtain ⟨-, -, seen⟩ := bind_ok.mp seen
    cases seen
    exact put_fixed (by rfl) (by rfl) (by rfl) _

theorem settleRefresh_fixed (r : Refreshing) (w : World) : Fixed w (settleRefresh P cfg r w) := by
  unfold settleRefresh
  have revoked : ∀ b : Bool, Fixed w (if b then revoke w else w) := by
    rintro (_ | _)
    · exact .refl w
    · exact revoke_fixed w
  dsimp only
  split
  · exact revoked _
  split
  · exact ((revoked _).trans (publish_fixed _ _)).trans (observePki_fixed _ _ _ _ _)
  · exact (revoked _).trans (publish_fixed _ _)

theorem flush_fixed (ready : Bool) (answer : Answer) (written : Written) (w : World) :
    Fixed w (flushPkiObservation ready answer written w) := by
  unfold flushPkiObservation
  split
  · exact .refl w
  split
  · split
    · exact .refl w
    · exact .refl w
    · exact identityFailure_fixed w _
    · split
      · exact .refl w
      · exact put_fixed (by rfl) (by rfl) (by rfl) _
  · exact .refl w

theorem ask_fixed (a : Acknowledging) (document : Trust) (w : World) : Fixed w (ask P a document w).2 := by
  unfold ask
  split
  · exact .refl w
  · exact put_fixed (by rfl) (by rfl) (by rfl) _

theorem confirm_fixed (a : Acknowledging) (w : World) : Fixed w (confirm a w) := by
  unfold confirm
  split
  · exact .refl w
  split
  · exact .refl w
  split
  · exact identityFailure_fixed w _
  · exact put_fixed (by rfl) (by rfl) (by rfl) _

theorem acknowledge_fixed (a : Acknowledging) (w : World) : Fixed w (acknowledgeTrust P a w) := by
  unfold acknowledgeTrust
  split
  · rename_i document _ _
    have observed : Fixed w (observeApplied P a document w).2 := by
      unfold observeApplied
      split
      · exact observePki_fixed _ _ _ _ _
      · exact .refl w
    split
    · rename_i u same
      rwa [same] at observed
    · rename_i u same
      rw [same] at observed
      have asked := ask_fixed (P := P) a document u
      split
      · rename_i v same
        rw [same] at asked
        exact observed.trans asked
      · rename_i v same
        rw [same] at asked
        exact (observed.trans asked).trans (confirm_fixed a v)
  · exact .refl w

theorem backOff_fixed (succeeded : Bool) (now : Int) (written : Written) (w : World) : Fixed w (backOff succeeded now written w) := by
  unfold backOff
  split
  · exact put_fixed (by rfl) (by rfl) (by rfl) _
  · exact put_fixed (by rfl) (by rfl) (by rfl) _

structure Replaced (P : Primitives) (cfg : Config) (w u : World) : Prop where
  opened : u.pki.blocked = false
  accepted : ∃ v now reply, acceptable P cfg w.pki now reply = .ok v ∧ u.pki.document = some v.document ∧
    u.pki.watermarks = v.watermarks ∪ w.pki.watermarks

structure Refused (w u : World) : Prop where
  document : u.pki.document = w.pki.document
  watermarks : u.pki.watermarks = w.pki.watermarks
  blocked : u.pki.blocked = true
  gate : u.gate ≤ 0

def Effect (P : Primitives) (cfg : Config) (w : World) : Refreshed → World → Prop
  | .full, u => u = w
  | .refused, u => Refused w u
  | .installed, u => Replaced P cfg w u
  | .unblocked, u => u = close w
  | .idle, u | .uninstalled, u => Fixed w u

theorem install_replaces {w u : World} {v : VerifiedTrust} {now : Int} {reply : Option Trust} {s : State}
    (accepted : acceptable P cfg w.pki now reply = .ok v) (h : install w.pki v now = some s) (fixed : Fixed ⟨s, (close w).gate⟩ u) :
    Replaced P cfg w u := by
  unfold install at h
  split at h
  · cases h
  cases h
  exact ⟨fixed.blocked, v, now, reply, accepted, fixed.document, fixed.watermarks⟩

theorem blocked_refused (w : World) : Refused w { close w with pki := { w.pki with blocked := true } } :=
  ⟨rfl, rfl, rfl, close_gate w⟩

theorem refreshTrust_effect (r : Refreshing) (w : World) : Effect P cfg w (refreshTrust P cfg r w).1 (refreshTrust P cfg r w).2 := by
  unfold refreshTrust
  split
  · exact Fixed.refl w
  split
  · exact Fixed.refl w
  split
  · exact Fixed.refl w
  · exact Fixed.refl w
  split
  · exact Fixed.refl w
  split
  · cases r.written with
    | lost => rfl
    | stored | unsure => exact blocked_refused w
  split
  · rfl
  split
  · exact close_fixed w
  · exact install_replaces ‹_› ‹_› (.refl _)
  · exact install_replaces ‹_› ‹_› (settleRefresh_fixed r _)

theorem perform_effect (w : World) : ∀ o, Effect P cfg w (perform P cfg w o).1 (perform P cfg w o).2
  | .refresh r => refreshTrust_effect r w
  | .publish d => publish_fixed d w
  | .observe o status reason => observePki_fixed o none status reason w
  | .flush ready answer written => flush_fixed ready answer written w
  | .acknowledge a => acknowledge_fixed a w
  | .backOff succeeded now written => backOff_fixed succeeded now written w
  | .identityFailure failure => identityFailure_fixed w failure
  | .restart => ⟨rfl, rfl, rfl, fun _ _ => le_rfl⟩

/-! ## Runs -/

structure Sound (s : State) : Prop where
  numbered : Numbered s.watermarks
  fresh : s.document = none → s.watermarks = ∅

structure Reached (w : World) : Prop where
  sound : Sound w.pki
  closed : w.pki.blocked = true → w.gate ≤ 0

theorem acceptable_new {s : State} {now : Int} {reply : Option Trust} {v : VerifiedTrust} (h : acceptable P cfg s now reply = .ok v) :
    (∃ document, VerifiedTrust.new P document cfg now = .ok v) ∧
      ∀ previous, s.document = some previous → v.monotonic P previous s.watermarks = .ok () := by
  unfold acceptable at h
  split at h
  · cases h
  obtain ⟨v', verified, h⟩ := bind_ok.mp h
  split at h
  · rename_i absent
    cases h
    exact ⟨⟨_, verified⟩, fun previous found => by rw [absent] at found; cases found⟩
  · rename_i previous found
    obtain ⟨_, monotonic, h⟩ := bind_ok.mp h
    cases h
    exact ⟨⟨_, verified⟩, fun other same => by cases found.symm.trans same; exact monotonic⟩

theorem lookup_union_cases {new old : Table String Watermark} {id : String} {w : Watermark} (h : (new ∪ old).lookup id = some w) :
    new.lookup id = some w ∨ (new.lookup id = none ∧ old.lookup id = some w) := by
  rcases AList.mem_lookup_union.mp h with found | ⟨absent, found⟩
  · exact .inl found
  · exact .inr ⟨AList.lookup_eq_none.mpr absent, found⟩

theorem monotonic_spec {v : VerifiedTrust} {previous : Trust} {t : Table String Watermark} (h : v.monotonic P previous t = .ok ()) :
    (previous.revision < v.document.revision ∨
      (previous.revision = v.document.revision ∧ P.installationDigest previous = P.installationDigest v.document)) ∧
    ∀ id new old, v.watermarks.lookup id = some new → t.lookup id = some old → new.recedes old = false := by
  unfold VerifiedTrust.monotonic at h
  split at h
  · cases h
  rename_i revisions
  split at h
  · cases h
  rename_i lists
  rw [not_or, not_lt, not_and_not_right] at revisions
  constructor
  · rcases Nat.lt_or_eq_of_le revisions.1 with less | same
    · exact .inl less
    · exact .inr ⟨same, (revisions.2 same.symm).symm⟩
  · intro id new old found known
    rw [Bool.not_eq_true, List.any_eq_false] at lists
    have kept := lists ⟨id, new⟩ (mem_entries_of_lookup found)
    rw [known] at kept
    exact (Bool.not_eq_true _).mp kept

theorem replaced_advances {w u : World} (sound : Sound w.pki) (replaced : Replaced P cfg w u) : Advances P w.pki u.pki ∧ Sound u.pki := by
  obtain ⟨-, v, now, reply, accepted, document, watermarks⟩ := replaced
  obtain ⟨⟨d, verified⟩, monotonic⟩ := acceptable_new accepted
  obtain ⟨-, -, numbered⟩ := new_built verified
  refine ⟨⟨fun d found => ⟨_, document, (monotonic_spec (monotonic d found)).1⟩, fun id old found => ?_⟩, ?_, ?_⟩
  · rw [watermarks]
    cases known : w.pki.document with
    | none =>
      rw [sound.fresh known] at found
      simp at found
    | some previous =>
      cases new : v.watermarks.lookup id with
      | some watermark =>
        refine ⟨watermark, AList.mem_lookup_union.mpr (.inl new), ?_⟩
        exact recedes_later (numbered id _ new) (sound.numbered id _ found) ((monotonic_spec (monotonic _ known)).2 id _ _ new found)
      | none => exact ⟨old, AList.mem_lookup_union.mpr (.inr ⟨AList.lookup_eq_none.mp new, found⟩), .refl old⟩
  · intro id watermark found
    rw [watermarks] at found
    rcases lookup_union_cases found with found | ⟨-, found⟩
    · exact numbered id _ found
    · exact sound.numbered id _ found
  · intro absent
    rw [document] at absent
    cases absent

theorem same_advances {w u : World} (sound : Sound w.pki) (document : u.pki.document = w.pki.document)
    (watermarks : u.pki.watermarks = w.pki.watermarks) : Advances P w.pki u.pki ∧ Sound u.pki := by
  refine ⟨⟨fun d found => ⟨d, document.trans found, .inr ⟨rfl, rfl⟩⟩, fun id w found => ⟨w, by rwa [watermarks], .refl w⟩⟩, ?_, ?_⟩
  · rw [watermarks]
    exact sound.numbered
  · rw [watermarks, document]
    exact sound.fresh

theorem effect_reached {w u : World} {outcome : Refreshed} (reached : Reached w) (effect : Effect P cfg w outcome u) :
    Advances P w.pki u.pki ∧ Reached u := by
  have fixed : Fixed w u → Advances P w.pki u.pki ∧ Reached u := fun fixed => by
    obtain ⟨advances, sound⟩ := same_advances (P := P) reached.sound fixed.document fixed.watermarks
    exact ⟨advances, sound, fun blocked => fixed.gate (fixed.blocked ▸ blocked) (reached.closed (fixed.blocked ▸ blocked))⟩
  cases outcome with
  | idle | uninstalled => exact fixed effect
  | unblocked => exact fixed (effect ▸ close_fixed w)
  | full => exact fixed (effect ▸ .refl w)
  | refused =>
    obtain ⟨advances, sound⟩ := same_advances (P := P) reached.sound effect.document effect.watermarks
    exact ⟨advances, sound, fun _ => effect.gate⟩
  | installed =>
    obtain ⟨advances, sound⟩ := replaced_advances reached.sound effect
    exact ⟨advances, sound, fun blocked => by rw [effect.opened] at blocked; cases blocked⟩

theorem step_reached {w u : World} {label : Operation × Refreshed} (reached : Reached w) (step : Step P cfg w label u) :
    Effect P cfg w label.2 u ∧ Advances P w.pki u.pki ∧ Reached u := by
  obtain ⟨o⟩ := step
  have effect : Effect P cfg w _ _ := perform_effect w o
  exact ⟨effect, effect_reached reached effect⟩

theorem initial_reached : Reached World.initial :=
  ⟨⟨fun id w found => by simp [World.initial, State.default] at found, fun _ => rfl⟩, fun blocked => by cases blocked⟩

theorem run_reached {labels : List (Operation × Refreshed)} {w : World} (run : Runs (Step P cfg) World.initial labels w) : Reached w :=
  run.invariant Reached initial_reached fun _ _ _ reached step => (step_reached reached step).2.2

theorem run_advances {w u : World} {labels : List (Operation × Refreshed)} (reached : Reached w) (run : Runs (Step P cfg) w labels u) :
    Advances P w.pki u.pki := by
  refine (run.invariant (fun u => Reached u ∧ Advances P w.pki u.pki) ⟨reached, .refl _⟩ ?_).2
  rintro t label u ⟨reached, advances⟩ step
  obtain ⟨-, advances', reached⟩ := step_reached reached step
  exact ⟨reached, advances.trans advances'⟩

structure Closed (P : Primitives) (cfg : Config) (w : World) : Prop where
  gate : w.expiresAt = none
  identity : ∀ d, runtimeReadiness P cfg d w.pki ≠ .ok ()

theorem blocked_closed {w : World} (reached : Reached w) (blocked : w.pki.blocked = true) : Closed P cfg w :=
  ⟨if_neg (not_lt.mpr (reached.closed blocked)), fun _ => runtimeReadiness_blocked blocked⟩

theorem run_blocked {w u : World} {labels : List (Operation × Refreshed)} (reached : Reached w) (blocked : w.pki.blocked = true)
    (run : Runs (Step P cfg) w labels u) (uninstalled : ∀ label ∈ labels, label.2 ≠ .installed) : Reached u ∧ u.pki.blocked = true := by
  induction run with
  | refl => exact ⟨reached, blocked⟩
  | @next labels t u label _ step ih =>
    obtain ⟨reached, blocked⟩ := ih fun label mem => uninstalled label (List.mem_append_left _ mem)
    have other := uninstalled label (List.mem_append_right _ (List.mem_singleton_self label))
    obtain ⟨effect, -, reached⟩ := step_reached reached step
    refine ⟨reached, ?_⟩
    revert effect other
    cases label.2 with
    | installed => exact fun other => absurd rfl other
    | refused => exact fun _ effect => effect.blocked
    | full | unblocked => exact fun _ effect => effect ▸ blocked
    | idle | uninstalled => exact fun _ effect => effect.blocked.trans blocked

/-! ## Leaves -/

structure Vouches (P : Primitives) (now : Int) (leaf : X509) (made : Generation) : Prop where
  signed : ∃ issuer, certificate P made.issuer = .ok issuer ∧ leaf.issuer = issuer.subject ∧ P.signed leaf issuer.publicKey = true ∧
    (made.issuer ≠ made.root → serial issuer.serial ∉ made.rootCrl.revoked)
  unrevoked : serial leaf.serial ∉ made.crl.revoked
  current : now < made.crl.expires ∧ now < made.rootCrl.expires

theorem walk_vouched {leaf : X509} {first : Bytes} {supplied : List Bytes} {now : Int} : ∀ {revoked : Bool} {generations : List Generation},
    walk P leaf first supplied now revoked generations = .ok () → ∃ made ∈ generations, Vouches P now leaf made
  | _, [], h => by cases h
  | revoked, g :: rest, h => by
    have later : ∀ {revoked}, walk P leaf first supplied now revoked rest = .ok () → ∃ made ∈ g :: rest, Vouches P now leaf made :=
      fun h => by
        obtain ⟨made, mem, vouches⟩ := walk_vouched h
        exact ⟨made, List.mem_cons_of_mem _ mem, vouches⟩
    unfold walk at h
    obtain ⟨issuer, parsed, h⟩ := bind_ok.mp h
    split at h
    · exact later h
    rename_i subject
    split at h
    · exact later h
    rename_i key
    obtain ⟨root, -, h⟩ := bind_ok.mp h
    split at h
    · exact later h
    rename_i kept
    obtain ⟨_, -, h⟩ := bind_ok.mp h
    obtain ⟨_, -, h⟩ := bind_ok.mp h
    split at h
    · cases h
    rename_i current
    split at h
    · cases h
    split at h
    · rw [not_or, not_le, not_le] at current
      unfold Generation.revokes at kept
      rw [Bool.not_eq_true, Bool.or_eq_false_iff, Bool.and_eq_false_iff] at kept
      refine ⟨g, List.mem_cons_self, ⟨issuer, parsed, not_ne_iff.mp subject, by simpa using key, fun differ => ?_⟩, ?_, current⟩
      · rcases kept.2 with same | free
        · exact absurd differ (of_decide_eq_false same)
        · exact of_decide_eq_false free
      · exact of_decide_eq_false kept.1
    · exact later h

theorem forall₂_mem {α β : Type} {R : α → β → Prop} {as : List α} {bs : List β} (related : List.Forall₂ R as bs) {b : β} (mem : b ∈ bs) :
    ∃ a ∈ as, R a b := by
  induction related with
  | nil => cases mem
  | cons h _ ih =>
    rcases List.mem_cons.mp mem with rfl | mem
    · exact ⟨_, List.mem_cons_self, h⟩
    · obtain ⟨a, inside, h⟩ := ih mem
      exact ⟨a, List.mem_cons_of_mem _ inside, h⟩

theorem verifyLeaf_vouched {document : Trust} {before now : Int} {v : VerifiedTrust} {chain : List Bytes}
    (verified : VerifiedTrust.new P document cfg before = .ok v) (h : v.verifyLeaf P chain now = .ok ()) :
    ∃ first leaf g made, chain.head? = some first ∧ certificate P first = .ok leaf ∧ g ∈ document.issuers ∧ Made P before g made ∧
      Vouches P now leaf made := by
  obtain ⟨-, listed, -⟩ := new_built verified
  unfold VerifiedTrust.verifyLeaf at h
  split at h
  · cases h
  split at h
  · cases h
  obtain ⟨leaf, parsed, h⟩ := bind_ok.mp h
  obtain ⟨made, mem, vouches⟩ := walk_vouched h
  obtain ⟨g, inside, from'⟩ := forall₂_mem listed mem
  exact ⟨_, leaf, g, made, rfl, parsed, inside, from', vouches⟩

/-- In every run the trust only advances; a refused document closes admission, and once that is stored until a trust is installed; a
document without room changes nothing; and a leaf is accepted only through a listed issuer that signed it and whose current list does not revoke it. -/
theorem installed_trust {labels : List (Operation × Refreshed)} {w : World} (run : Runs (Step P cfg) World.initial labels w) :
    (∀ later u, Runs (Step P cfg) w later u → Advances P w.pki u.pki) ∧
    (∀ o u, Step P cfg w (o, .refused) u → Closed P cfg u ∧ ∀ later v, Runs (Step P cfg) u later v →
      (∀ label ∈ later, label.2 ≠ .installed) → Closed P cfg v) ∧
    (∀ o u, Step P cfg w (o, .unblocked) u → u.expiresAt = none) ∧
    (∀ o u, Step P cfg w (o, .full) u → u = w) ∧
    ∀ before now v chain, w.pki.verified P cfg before = .ok v → v.verifyLeaf P chain now = .ok () →
      ∃ document first leaf g made, w.pki.document = some document ∧ chain.head? = some first ∧ certificate P first = .ok leaf ∧
        g ∈ document.issuers ∧ Made P before g made ∧ Vouches P now leaf made := by
  have reached := run_reached run
  refine ⟨fun later u run => run_advances reached run, fun o u step => ?_, fun o u step => ?_,
    fun o u step => (step_reached reached step).1, ?_⟩
  · obtain ⟨effect, -, reached⟩ := step_reached reached step
    have blocked : u.pki.blocked = true := effect.blocked
    refine ⟨blocked_closed reached blocked, fun later v run uninstalled => ?_⟩
    obtain ⟨reached, blocked⟩ := run_blocked reached blocked run uninstalled
    exact blocked_closed reached blocked
  · obtain ⟨rfl, -⟩ := step_reached reached step
    exact if_neg (not_lt.mpr (close_gate w))
  · intro before now v chain verified accepted
    unfold State.verified at verified
    split at verified
    · cases verified
    split at verified
    · cases verified
    rename_i document found
    obtain ⟨first, leaf, g, made, head, parsed, inside, from', vouches⟩ := verifyLeaf_vouched verified accepted
    exact ⟨document, first, leaf, g, made, found, head, parsed, inside, from', vouches⟩

/-! ## Two issuers with one key -/

section Sample

local instance bytesLawful : LawfulBEq Bytes := inferInstance

def sampleAlgorithm : AlgorithmIdentifier := ⟨"1.2.840.10045.4.3.2", []⟩

def sampleAuthority (serial : Bytes) : X509 :=
  ⟨sampleAlgorithm, sampleAlgorithm, [65], [65], serial, 0, 1000, [75], true, [], some ⟨true, true, none⟩, some ⟨true, true, true⟩⟩

def sampleLeaf : X509 := ⟨sampleAlgorithm, sampleAlgorithm, [66], [65], [9], 0, 1000, [76], true, [], none, none⟩

def sampleCrl (number : Nat) (revoked : List RevokedCertificate) : RevocationList :=
  ⟨sampleAlgorithm, sampleAlgorithm, [65], [], some number, 0, some 1000, revoked⟩

def samplePrimitives : Primitives where
  encode64 := fun
    | [1] => "AQ=="
    | [2] => "Ag=="
    | [3] => "Aw=="
    | [4] => "BA=="
    | _ => ""
  decode64 := fun text =>
    if text = "AQ==" then some [1] else if text = "Ag==" then some [2] else if text = "Aw==" then some [3]
    else if text = "BA==" then some [4] else none
  hash := fun
    | [1] => "4bf5122f344554c53bde2ebb8cd2b7e3d1600ad631c385a5d7cce23c7785459a"
    | [2] => "dbc1b4c900ffe48d575b5da5c638040125f65db0fe3e24494b76ea986457d986"
    | [3] => "084fed08b978af4d7d196a7446a86b58009e636b611db16211b65a9aadff29c5"
    | [4] => "e52d9c508c502347344d8c07ad91cbd6068afc75ff6292f062a09ca381c89e71"
    | _ => ""
  readCertificate := fun
    | [1] => some ([], sampleAuthority [1])
    | [2] => some ([], sampleAuthority [2])
    | [9] => some ([], sampleLeaf)
    | _ => none
  readCrl := fun
    | [3] => some ([], sampleCrl 5 [⟨[9], []⟩])
    | [4] => some ([], sampleCrl 4 [])
    | _ => none
  signed := fun certificate key => decide (certificate.issuer = [65] ∧ key = [75])
  crlSigned := fun list key => decide (list.issuer = [65] ∧ key = [75])
  builds := fun _ => true
  -- the path is that of the leaf and no list of the verifier revokes it
  verifyClientCert := fun v leaf _ _ => decide (leaf = [9] ∧ (v.root = [1] ∨ v.root = [2]) ∧ [3] ∉ v.crls)
  validate := fun _ => .ok ()
  installationDigest := fun document => if document.issuers.length = 2 then "two" else "other"

def sampleConfig : Config := ⟨"service", "tenant"⟩

def sampleTrust : Trust :=
  ⟨1, .agent, "service", "tenant",
    [⟨"rss-agent", "a", "AQ==", "AQ==", "4bf5122f344554c53bde2ebb8cd2b7e3d1600ad631c385a5d7cce23c7785459a", .other, "Aw==", "Aw=="⟩,
      ⟨"rss-agent", "b", "Ag==", "Ag==", "dbc1b4c900ffe48d575b5da5c638040125f65db0fe3e24494b76ea986457d986", .other, "BA==", "BA=="⟩]⟩

def sampleDevice (now : Int) : Device := ⟨.ok none, .ok now, .ok 900, .ok (), [[9]], .ok (), .ok ()⟩

def sampleRefresh (now : Int) (reply : Option Trust) (written : Written) : Refreshing :=
  ⟨.ok now, .ok (true, reply), .ok now, written, sampleDevice now, true, false, ⟨.error .identity, 0, .ok now, .ok (), .stored⟩⟩

def sampleWorld : World := (perform samplePrimitives sampleConfig .initial (.refresh (sampleRefresh 10 (some sampleTrust) .stored))).2

def okAny {α : Type} (result : Except Error α) (test : α → Bool) : Bool :=
  match result with
  | .ok value => test value
  | .error _ => false

theorem okAny_elim {α : Type} {result : Except Error α} {test : α → Bool} (h : okAny result test = true) :
    ∃ value, result = .ok value ∧ test value = true := by
  cases result with
  | error error => cases h
  | ok value => exact ⟨value, rfl, h⟩

def revokedBy (P : Primitives) (now : Int) (leaf : X509) (made : Generation) : Bool :=
  okAny (certificate P made.issuer) fun issuer => decide (leaf.issuer = issuer.subject) && P.signed leaf issuer.publicKey &&
    decide (serial leaf.serial ∈ made.crl.revoked) && decide (now < made.crl.expires)

theorem step_to {P : Primitives} {cfg : Config} {w : World} {o : Operation} {outcome : Refreshed} (h : (perform P cfg w o).1 = outcome) :
    Step P cfg w (o, outcome) (perform P cfg w o).2 := h ▸ .perform o

/-- A leaf is accepted that one of two issuers of its key revokes; and admission opens again after a refused document whose refusal
could not be stored. -/
theorem revoked_leaf_accepted : ∃ labels w, Runs (Step samplePrimitives sampleConfig) World.initial labels w ∧
    (∃ v, w.pki.verified samplePrimitives sampleConfig 10 = .ok v ∧ v.verifyLeaf samplePrimitives [[9]] 10 = .ok () ∧
      ∃ made ∈ v.generations, revokedBy samplePrimitives 10 sampleLeaf made = true) ∧
    ∃ o u d v, Step samplePrimitives sampleConfig w (o, .unblocked) u ∧ Step samplePrimitives sampleConfig u (.publish d, .idle) v ∧
      v.expiresAt = some 900 := by
  have accepted : okAny (sampleWorld.pki.verified samplePrimitives sampleConfig 10) (fun v =>
      okAny (v.verifyLeaf samplePrimitives [[9]] 10) (fun _ => true) &&
        v.generations.any (revokedBy samplePrimitives 10 sampleLeaf)) = true := by
    decide +kernel
  obtain ⟨v, verified, test⟩ := okAny_elim accepted
  rw [Bool.and_eq_true, List.any_eq_true] at test
  obtain ⟨_, leaf, -⟩ := okAny_elim test.1
  have unstored : (perform samplePrimitives sampleConfig sampleWorld (.refresh (sampleRefresh 400 none .lost))).1 = .unblocked := by
    decide +kernel
  have opened : (publishRuntimeGate samplePrimitives sampleConfig (sampleDevice 400)
      (perform samplePrimitives sampleConfig sampleWorld (.refresh (sampleRefresh 400 none .lost))).2).expiresAt = some 900 := by
    decide +kernel
  exact ⟨_, sampleWorld, .one (.perform _), ⟨v, verified, leaf, test.2⟩, .refresh (sampleRefresh 400 none .lost), _, sampleDevice 400, _,
    step_to unstored, .perform _, opened⟩

/-- A malformed document closes admission after a trust was installed. -/
theorem installed_trust_sample : ∃ labels w o u, Runs (Step samplePrimitives sampleConfig) World.initial labels w ∧
    Step samplePrimitives sampleConfig w (o, .refused) u ∧ Closed samplePrimitives sampleConfig u := by
  have run : Runs (Step samplePrimitives sampleConfig) World.initial _ sampleWorld := .one (.perform _)
  have refuses : (perform samplePrimitives sampleConfig sampleWorld (.refresh (sampleRefresh 400 none .stored))).1 = .refused := by
    decide +kernel
  exact ⟨_, _, _, _, run, step_to refuses, ((installed_trust run).2.1 _ _ (step_to refuses)).1⟩

end Sample

end RssMdmAgent.InstalledTrust
