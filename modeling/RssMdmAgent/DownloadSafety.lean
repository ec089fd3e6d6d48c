import RssMdmAgent.ContentDownloads

set_option autoImplicit false

/-! # Every call of a download and of a cleanup keeps the published contents exact -/

namespace RssMdmAgent.ContentDownloads
open CrashPrograms TransitionRuns
open ContentTransfers (Error Stage)

section Files
variable {N Task : Type} [DecidableEq N] {s : Content N Task} {n other : N} {p bytes : Bytes}

theorem put_self (files : Files) : (s.put n files).files n = files := Function.update_self ..

theorem put_other (files : Files) (differ : other ≠ n) : (s.put n files).files other = s.files other :=
  Function.update_of_ne differ _ _

theorem setPart_part : ((s.setPart n bytes).files n).part = some bytes := congrArg Files.part (put_self _)

theorem put_blob {files : Files} (same : files.blob = (s.files n).blob) (m : N) :
    ((s.put n files).files m).blob = (s.files m).blob := by
  by_cases eq : m = n
  · rw [eq, put_self, same]
  · rw [put_other _ eq]

theorem overwrite_end (p bytes : Bytes) : overwrite p p.length bytes = p ++ bytes := by
  unfold overwrite
  rw [List.take_length, Nat.sub_self, List.replicate_zero, List.append_nil, List.drop_eq_nil_of_le (by omega), List.append_nil]

end Files

section Safety
variable {N Task Digest : Type} [DecidableEq N] {digest : Bytes → Digest} {etag : Digest → String}
  {name : Nat → Digest → N} {limit : Nat} {s t : Content N Task} {n : N} {length : Nat} {sha256 : Digest}

omit [DecidableEq N] in
theorem Exact.same {u : Content N Task} (h : Exact digest name s) (blobs : ∀ m, (u.files m).blob = (s.files m).blob)
    (wronged : u.wronged = s.wronged) : Exact digest name u :=
  ⟨fun length sha256 bytes found => h.blobs length sha256 bytes ((blobs _).symm.trans found), wronged.trans h.wronged⟩

theorem Exact.setPart (h : Exact digest name s) (bytes : Bytes) : Exact digest name (s.setPart n bytes) :=
  h.same (put_blob rfl) rfl

structure Holding (digest : Bytes → Digest) (name : Nat → Digest → N) (n : N) (k : Nat) (s : Content N Task) : Prop where
  exact : Exact digest name s
  held : ∃ p, (s.files n).part = some p ∧ p.length = k

abbrev Keeps {α : Type} (digest : Bytes → Digest) (name : Nat → Digest → N) (w : Download N α)
    (Q : α → Content N Task → Prop) (s : Content N Task) : Prop :=
  (contentMachine N Task).Works (Exact digest name) w Q s

theorem ground {P : Content N Task → Prop} (inv : ∀ s, P s → Exact digest name s) :
    (contentMachine N Task).Ground (Exact digest name) P :=
  ⟨fun _ _ _ step => step.elim, inv⟩

theorem tells_works {P : Content N Task → Prop} (inv : ∀ s, P s → Exact digest name s) (h : P s) (c : Call N)
    {fact : Content N Task → Reply c → Prop} (telling : ∀ s reply t, serves s c reply t → tells s (fact s) reply t) :
    Keeps digest name (request c) (fun value t => P t ∧ fact t value) s :=
  Machine.Works.still c fact telling (ground inv) h

theorem quiet_works {P : Content N Task → Prop} (inv : ∀ s, P s → Exact digest name s) (h : P s) (c : Call N)
    (still : ∀ (s : Content N Task) reply t, serves s c reply t → t = s) : Keeps digest name (request c) (fun _ t => P t) s :=
  Machine.Works.mono (Q := fun _ t => P t ∧ True)
    (tells_works inv h c fun s reply t step => ⟨still s reply t step, fun _ _ => trivial⟩) fun _ _ h => h.1

theorem pause_works {P : Content N Task → Prop} {Q : Unit → Content N Task → Prop} (inv : ∀ s, P s → Exact digest name s) (h : P s)
    (bytes : Nat) : Keeps digest name (pause n bytes) Q s := by
  refine Machine.Works.andThen (quiet_works inv h (.sync n) fun _ _ _ h => h) fun _ t h => ?_
  refine Machine.Works.andThen (quiet_works inv h (.unlock n) fun _ _ _ h => h) fun _ t h => ?_
  exact Machine.Works.andThen (quiet_works inv h (.publish n bytes .paused) fun _ _ _ h => h) fun _ t h =>
    Machine.Works.fail (inv t h)

theorem active_works {P : Content N Task → Prop} {Q : Unit → Content N Task → Prop} (inv : ∀ s, P s → Exact digest name s) (h : P s)
    (bytes : Nat) {next : Download N Unit} (going : ∀ t, P t → Keeps digest name next Q t) :
    Keeps digest name (do
      let active ← request (.active n)
      if active then next else pause n bytes) Q s := by
  refine Machine.Works.andThen (quiet_works inv h (.active n) fun _ _ _ h => h) fun active t h => ?_
  exact Machine.Works.ite (fun _ => going t h) fun _ => pause_works inv h bytes

theorem awaitResponse_works {P : Content N Task → Prop} (inv : ∀ s, P s → Exact digest name s) (offset : Nat) :
    ∀ (changes : Nat) (s : Content N Task), P s → Keeps digest name (awaitResponse n offset changes) (fun _ t => P t) s
  | 0, _, h => active_works inv h offset fun _ h => Machine.Works.ok h
  | changes + 1, _, h => active_works inv h offset fun t h => awaitResponse_works inv offset changes t h

theorem truncate_works (h : Exact digest name s) :
    Keeps digest name (request (.truncate n)) (fun _ t => Holding digest name n 0 t) s := by
  refine Machine.Works.write (.truncate n) (·.setPart n []) (R := Holding digest name n 0) ?_ (ground fun _ h => h)
    (fun _ h => h.exact) (fun t h => ⟨h.setPart [], [], setPart_part, rfl⟩) h
  rintro s reply t (done | ⟨same, failed⟩)
  · exact .inl done
  · exact .inr ⟨same, fun _ ok => failed ok⟩

theorem write_works {count : Nat} (h : Holding digest name n count s) (bytes : Bytes) :
    Keeps digest name (request (.write n count bytes)) (fun _ t => Holding digest name n (count + bytes.length) t) s := by
  refine Machine.Works.ask (P := Holding digest name n count) (fun _ _ _ step => step.elim) h ?_
  rintro t reply u h (⟨old, k, found, rfl, whole⟩ | ⟨rfl, failed⟩)
  · refine ⟨h.exact.setPart _, fun value ok => ⟨h.exact.setPart _, _, setPart_part, ?_⟩⟩
    obtain ⟨p, there, len⟩ := h.held
    cases there.symm.trans found
    rw [whole ok, List.take_length, ← len, overwrite_end, List.length_append]
  · exact ⟨h.exact, fun value ok => absurd ok failed⟩

theorem stream_works : ∀ (events : List Event) (count : Nat) (s : Content N Task), Holding digest name n count s →
    Keeps digest name (stream n length count events) (fun _ t => Holding digest name n length t) s
  | [], count, s, h => by
    refine active_works (fun _ h => h.exact) h count fun t h => ?_
    refine Machine.Works.andThen (quiet_works (fun _ h => h.exact) h (.sync n) fun _ _ _ h => h) fun _ t h => ?_
    refine Machine.Works.ite (fun _ => Machine.Works.fail h.exact) fun same => Machine.Works.ok ?_
    rwa [← not_ne_iff.mp same]
  | .changed :: rest, count, s, h => active_works (fun _ h => h.exact) h count fun t h => stream_works rest count t h
  | .failed error :: rest, count, s, h => active_works (fun _ h => h.exact) h count fun t h => Machine.Works.fail h.exact
  | .chunk bytes :: rest, count, s, h => by
    refine active_works (fun _ h => h.exact) h count fun t h => ?_
    refine Machine.Works.ite (fun _ => Machine.Works.fail h.exact) fun _ => ?_
    refine Machine.Works.ite (fun _ => Machine.Works.fail h.exact) fun _ => ?_
    refine Machine.Works.andThen (write_works h bytes) fun _ t h => ?_
    refine Machine.Works.andThen (quiet_works (fun _ h => h.exact) h (.publish n (count + bytes.length) .downloading)
      fun _ _ _ h => h) fun _ t h => ?_
    exact stream_works rest (count + bytes.length) t h

theorem accepted_start {offset start : Nat} {response : Response} (h : accepted etag length sha256 offset response = .ok start) :
    start = offset ∨ start = 0 := by
  unfold accepted at h
  split at h
  · cases h
  split at h
  · cases h
  split at h
  · cases h
  cases h
  unfold Response.start
  split
  · exact .inl rfl
  · exact .inr rfl

theorem receive_works {offset : Nat} (response : Response) (h : Holding digest name n offset s) :
    Keeps digest name (receive etag n length sha256 offset response) (fun _ t => Holding digest name n length t) s := by
  refine Machine.Works.ite (fun _ => Machine.Works.fail h.exact) fun _ => Machine.Works.ite (fun _ => ?_) fun _ => ?_
  · exact Machine.Works.andThen (quiet_works (fun _ h => h.exact) h .refusal fun _ _ _ h => h) fun _ t h =>
      Machine.Works.fail h.exact
  cases acceptable : accepted etag length sha256 offset response with
  | error error => exact Machine.Works.fail h.exact
  | ok start =>
    have begun : Keeps digest name (rewind n start) (fun _ t => Holding digest name n start t) s := by
      refine Machine.Works.ite (fun zero => zero ▸ truncate_works h.exact) fun some => Machine.Works.ok ?_
      rcases accepted_start acceptable with same | none
      · rwa [same]
      · exact absurd none some
    refine Machine.Works.andThen begun fun _ t h => ?_
    refine Machine.Works.andThen (quiet_works (fun _ h => h.exact) h (.publish n start .downloading) fun _ _ _ h => h) fun _ t h => ?_
    exact stream_works response.body start t h

theorem fetch_works {offset : Nat} (h : Holding digest name n offset s) :
    Keeps digest name (fetch etag n length sha256 offset) (fun _ t => Holding digest name n length t) s := by
  refine Machine.Works.andThen (quiet_works (fun _ h => h.exact) h .deadline fun _ _ _ h => h) fun remaining t h => ?_
  refine Machine.Works.ite (fun _ => Machine.Works.fail h.exact) fun _ => ?_
  refine Machine.Works.andThen (quiet_works (fun _ h => h.exact) h (.send n _) fun _ _ _ h => h) fun sent t h => ?_
  refine Machine.Works.andThen (awaitResponse_works (fun _ h => h.exact) offset sent.changes t h) fun _ t h => ?_
  split
  · exact Machine.Works.fail h.exact
  · exact receive_works _ h

theorem lease_works (h : Exact digest name s) :
    Keeps digest name (lease n) (fun offset t => Holding digest name n offset t) s := by
  refine Machine.Works.andThen (quiet_works (fun _ h => h) h (.partialExists n) fun _ _ _ h => h.1) fun there t h => ?_
  have opened : ∀ t : Content N Task, Exact digest name t → Keeps digest name (request (.openPartial n)) (fun _ t => Exact digest name t) t :=
    fun t h => quiet_works (fun _ h => h) h (.openPartial n) fun _ _ _ h => h.1
  refine Machine.Works.andThen (Q := fun _ t => Exact digest name t) ?_ fun _ t h => ?_
  · refine Machine.Works.ite (fun _ => opened t h) fun _ => ?_
    refine Machine.Works.andThen (Q := fun _ t => Exact digest name t) ?_ fun _ t h => opened t h
    refine Machine.Works.ask (P := Exact digest name) (fun _ _ _ step => step.elim) h ?_
    rintro t reply u h (⟨_, rfl | ⟨rfl, _⟩⟩ | ⟨rfl, _⟩)
    · exact ⟨h.setPart [], fun _ _ => h.setPart []⟩
    · exact ⟨h, fun _ _ => h⟩
    · exact ⟨h, fun _ _ => h⟩
  refine Machine.Works.andThen (quiet_works (fun _ h => h) h (.lock n) fun _ _ _ h => h) fun _ t h => ?_
  refine (tells_works (fun _ h => h) h (.size n) fun _ _ _ h => h).mono ?_
  rintro k t ⟨h, p, found, rfl⟩
  exact ⟨h, p, found, rfl⟩

theorem Exact.publish {bytes : Bytes} (injective : ∀ l d l' d', name l d = name l' d' → l = l' ∧ d = d')
    (h : Exact digest name s) (found : (s.files (name length sha256)).part = some bytes) (len : bytes.length = length)
    (same : digest bytes = sha256) : Exact digest name (s.publish (name length sha256)) := by
  refine ⟨fun l d other there => ?_, h.wronged⟩
  by_cases eq : name l d = name length sha256
  · obtain ⟨rfl, rfl⟩ := injective _ _ _ _ eq
    change ((s.put _ _).files _).blob = some other at there
    rw [put_self] at there
    cases found.symm.trans there
    exact ⟨len, same⟩
  · change ((s.put _ _).files _).blob = some other at there
    rw [put_other _ eq] at there
    exact h.blobs l d other there

theorem remove_works {kind : Kind} (h : Exact digest name s ∧ s.isReferenced n = false) :
    Keeps digest name (request (.remove n kind)) (fun _ t => Exact digest name t) s := by
  refine Machine.Works.write (.remove n kind) (·.drop n kind) (P := fun t => Exact digest name t ∧ t.isReferenced n = false)
    (R := Exact digest name) ?_ (ground fun _ h => h.1) (fun _ h => h) (fun t h => ?_) h
  · rintro s reply t (done | ⟨same, failed⟩)
    · exact .inl done
    · exact .inr ⟨same, fun _ ok => failed ok⟩
  · refine ⟨fun l d bytes found => ?_, ?_⟩
    · change ((t.put _ _).files _).blob = some bytes at found
      by_cases eq : name l d = n
      · rw [eq, put_self] at found
        cases kind with
        | blob => cases found
        | part => exact h.1.blobs l d bytes (eq ▸ found)
      · rw [put_other _ eq] at found
        exact h.1.blobs l d bytes found
    · show (if t.isReferenced n then t.wronged ++ [n] else t.wronged) = []
      rw [h.2]
      exact h.1.wronged

theorem sweep_works (max : Nat) : ∀ (entries : List (Option (N × Kind))) (removed : Nat) (s : Content N Task),
    Exact digest name s → Keeps digest name (sweep max removed entries) (fun _ t => Exact digest name t) s
  | [], _, _, h => Machine.Works.ok h
  | none :: _, _, _, h => Machine.Works.ite (fun _ => Machine.Works.ok h) fun _ => Machine.Works.fail h
  | some (n, kind) :: rest, removed, s, h => by
    refine Machine.Works.ite (fun _ => Machine.Works.ok h) fun _ => ?_
    refine Machine.Works.andThen (tells_works (fun _ h => h) h (.referenced n) fun _ _ _ h => h) ?_
    rintro referenced t ⟨h, told⟩
    refine Machine.Works.ite (fun _ => sweep_works max rest removed t h) fun unreferenced => ?_
    have free : Exact digest name t ∧ t.isReferenced n = false := ⟨h, told ▸ (Bool.not_eq_true _).mp unreferenced⟩
    let P : Content N Task → Prop := fun t => Exact digest name t ∧ t.isReferenced n = false
    refine Machine.Works.andThen (quiet_works (P := P) (fun _ h => h.1) free (.openFile n kind) fun _ _ _ h => h) fun _ t free => ?_
    refine Machine.Works.andThen (quiet_works (P := P) (fun _ h => h.1) free (.tryLock n kind) fun _ _ _ h => h) fun locked t free => ?_
    refine Machine.Works.ite (fun _ => ?_) fun _ => sweep_works max rest removed t free.1
    refine Machine.Works.andThen (remove_works free) fun _ t h => ?_
    exact Machine.Works.andThen (quiet_works (fun _ h => h) h (.forget n) fun _ _ _ h => h) fun _ t h => sweep_works max rest (removed + 1) t h

theorem cleanup_works (max : Nat) (h : Exact digest name s) :
    Keeps digest name (cleanup max) (fun _ t => Exact digest name t) s := by
  refine Machine.Works.ite (fun _ => Machine.Works.fail h) fun _ => ?_
  refine Machine.Works.andThen (quiet_works (fun _ h => h) h .rootExists fun _ _ _ h => h) fun there t h => ?_
  refine Machine.Works.ite (fun _ => ?_) fun _ => Machine.Works.ok h
  refine Machine.Works.andThen (quiet_works (fun _ h => h) h .entries fun _ _ _ h => h) fun entries t h => ?_
  exact sweep_works max entries 0 t h

theorem detached_safe {α : Type} {w : Download N α} {Q : α → Content N Task → Prop} (works : Keeps digest name w Q s) :
    (contentMachine N Task).Safe (Exact digest name) (detached w) (fun _ _ => True) s :=
  Machine.Safe.bind works fun _ _ _ => trivial

section Contents
variable [DecidableEq Digest]

theorem prepare_works {offset : Nat} (h : Holding digest name n offset s) :
    Keeps digest name (prepare digest limit n length sha256 offset) (fun k t => Holding digest name n k t ∧ k ≤ length) s := by
  refine Machine.Works.andThen (Q := fun k t => Holding digest name n k t ∧ k ≤ length) ?_ ?_
  · refine Machine.Works.ite (fun _ => ?_) fun small => Machine.Works.ok ⟨h, Nat.le_of_not_lt small⟩
    exact Machine.Works.andThen (truncate_works h.exact) fun _ t h => Machine.Works.ok ⟨h, Nat.zero_le _⟩
  rintro k t h
  refine Machine.Works.andThen (quiet_works (P := fun t => Holding digest name n k t ∧ k ≤ length) (fun _ h => h.1.exact) h .used
    fun _ _ _ h => h) fun used t h => ?_
  refine Machine.Works.ite (fun _ => Machine.Works.fail h.1.exact) fun _ => ?_
  refine Machine.Works.ite (fun _ => ?_) fun _ => Machine.Works.ok h
  refine Machine.Works.andThen (quiet_works (P := fun t => Holding digest name n k t ∧ k ≤ length)
    (fun _ h => h.1.exact) h (.content n) fun _ _ _ h => h.1) fun bytes t h => ?_
  refine Machine.Works.ite (fun _ => ?_) fun _ => Machine.Works.ok h
  exact Machine.Works.andThen (truncate_works h.1.exact) fun _ t h => Machine.Works.ok ⟨h, Nat.zero_le _⟩

theorem complete_works (injective : ∀ l d l' d', name l d = name l' d' → l = l' ∧ d = d')
    (h : Holding digest name (name length sha256) length s) :
    Keeps digest name (complete digest (name length sha256) length sha256) (fun _ t => Exact digest name t) s := by
  refine Machine.Works.andThen (quiet_works (fun _ h => h.exact) h (.publish _ length .verifying) fun _ _ _ h => h) fun _ t h => ?_
  refine Machine.Works.andThen (tells_works (fun _ h => h.exact) h (.content _) fun _ _ _ h => h) ?_
  rintro bytes t ⟨h, found⟩
  refine Machine.Works.ite (fun _ => ?_) fun same => ?_
  · refine Machine.Works.andThen (quiet_works (fun _ h => h) h.exact (.publish _ 0 .failed) fun _ _ _ h => h) fun _ t h => ?_
    refine Machine.Works.andThen (truncate_works h) fun _ t h => ?_
    exact Machine.Works.andThen (quiet_works (fun _ h => h.exact) h (.sync _) fun _ _ _ h => h) fun _ t h => Machine.Works.fail h.exact
  · have len : bytes.length = length := by
      obtain ⟨p, there, len⟩ := h.held
      cases there.symm.trans found
      exact len
    let P : Content N Task → Prop := fun t => Exact digest name t ∧ (t.files (name length sha256)).part = some bytes
    refine Machine.Works.andThen (quiet_works (P := P) (fun _ h => h.1) ⟨h.exact, found⟩ (.sync _) fun _ _ _ h => h) fun _ t h => ?_
    refine Machine.Works.andThen (Q := fun _ t => Exact digest name t) ?_ fun _ t h => ?_
    · refine Machine.Works.write (.replace (name length sha256)) (·.publish (name length sha256)) (P := P) (R := Exact digest name) ?_
        (ground fun _ h => h.1) (fun _ h => h) (fun t h => h.1.publish injective h.2 len (not_ne_iff.mp same)) h
      rintro s reply t (done | ⟨same, failed⟩)
      · exact .inl done
      · exact .inr ⟨same, fun _ ok => failed ok⟩
    refine Machine.Works.andThen (quiet_works (fun _ h => h) h (.unlock _) fun _ _ _ h => h) fun _ t h => ?_
    refine Machine.Works.andThen (quiet_works (fun _ h => h) h (.reopen _) fun _ _ _ h => h) fun _ t h => ?_
    exact quiet_works (fun _ h => h) h (.publish _ length .complete) fun _ _ _ h => h

theorem cached_works (h : Exact digest name s) :
    Keeps digest name (cached digest n length sha256) (fun _ t => Exact digest name t) s := by
  refine Machine.Works.andThen (quiet_works (fun _ h => h) h (.blobExists n) fun _ _ _ h => h.1) fun there t h => ?_
  refine Machine.Works.ite (fun _ => ?_) fun _ => Machine.Works.ok h
  refine Machine.Works.andThen (quiet_works (fun _ h => h) h (.openBlob n) fun _ _ _ h => h.1) fun bytes t h => ?_
  exact Machine.Works.ite (fun _ => Machine.Works.fail h) fun _ => Machine.Works.ok h

theorem download_works (injective : ∀ l d l' d', name l d = name l' d' → l = l' ∧ d = d') (h : Exact digest name s) :
    Keeps digest name (download digest etag limit (name length sha256) length sha256) (fun _ t => Exact digest name t) s := by
  refine Machine.Works.andThen (cached_works h) fun found t h => ?_
  refine Machine.Works.ite (fun _ => quiet_works (fun _ h => h) h (.publish _ length .complete) fun _ _ _ h => h) fun _ => ?_
  refine Machine.Works.andThen (lease_works h) fun offset t h => ?_
  refine active_works (fun _ h => h.exact) h offset fun t h => ?_
  refine Machine.Works.andThen (prepare_works h) ?_
  rintro k t ⟨h, small⟩
  refine Machine.Works.andThen (Q := fun _ t => Holding digest name (name length sha256) length t) ?_ fun _ t h => complete_works injective h
  refine Machine.Works.ite (fun _ => fetch_works h) fun reached => Machine.Works.ok ?_
  have same : k = length := by omega
  rwa [same] at h

theorem run_exact [DecidableEq Task] (injective : ∀ l d l' d', name l d = name l' d' → l = l' ∧ d = d')
    {moves : List (Move (Job Digest Task N) (Call N))} {h : Host (Fallible Error (@Reply N)) (Content N Task)}
    (run : Runs (HostStep (contentMachine N Task) (starts digest etag limit name)) ⟨⟨fun _ => ⟨none, none⟩, [], []⟩, none⟩ moves h) :
    Exact digest name h.state := by
  have stable : (contentMachine N Task).Stable (Exact digest name) := fun _ _ _ step => step.elim
  have init : Exact digest name (⟨fun _ => ⟨none, none⟩, [], []⟩ : Content N Task) := ⟨fun _ _ _ found => (by cases found), rfl⟩
  refine (run_guarded stable (fun s job t p exact begins => ?_) init run).holds
  cases job with
  | download length sha256 =>
    obtain ⟨⟨blobs, _, wronged⟩, rfl⟩ := begins
    have kept := exact.same blobs wronged
    exact ⟨kept, detached_safe (download_works injective kept)⟩
  | cleanup max =>
    obtain ⟨⟨blobs, _, wronged⟩, rfl⟩ := begins
    have kept := exact.same blobs wronged
    exact ⟨kept, detached_safe (cleanup_works max kept)⟩
  | reference task n =>
    obtain ⟨rfl, rfl⟩ := begins
    exact ⟨⟨exact.blobs, exact.wronged⟩, trivial⟩
  | release task =>
    obtain ⟨rfl, rfl⟩ := begins
    exact ⟨⟨exact.blobs, exact.wronged⟩, trivial⟩

end Contents

end Safety

end RssMdmAgent.ContentDownloads
