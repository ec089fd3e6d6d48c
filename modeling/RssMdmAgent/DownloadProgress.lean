import RssMdmAgent.DownloadSafety

set_option autoImplicit false

/-! # Two attempts against an honest server complete a content from any partial file -/

namespace RssMdmAgent.ContentDownloads
open CrashPrograms TransitionRuns
open ContentTransfers (Error Stage)

def Carries : List Event → Bytes → Prop
  | [], bytes => bytes = []
  | .changed :: rest, bytes => Carries rest bytes
  | .chunk head :: rest, bytes => ∃ tail, bytes = head ++ tail ∧ Carries rest tail
  | .failed _ :: _, _ => False

/-- A content that an honest server has, and the room for it. -/
structure Source (N Digest : Type) where
  etag : Digest → String
  limit : Nat
  n : N
  length : Nat
  sha256 : Digest
  content : Bytes

section Honesty
variable {N Task Digest : Type} [DecidableEq N] (o : Source N Digest)

/-- The reply of a server that answers the range it is asked for. -/
structure Source.Answers (range : Option Nat) (response : Response) : Prop where
  status : response.status = if range.isSome then 206 else 200
  encoding : ∀ v, response.contentEncoding = some v → v = "identity"
  etag : response.etag = some (o.etag o.sha256)
  contentLength : response.contentLength = some (o.length - range.getD 0)
  contentRange : ∀ start, range = some start → response.contentRange = some (rangeText start o.length)
  body : Carries response.body (o.content.drop (range.getD 0))

omit [DecidableEq N] in
theorem Source.answered (range : Option Nat) : ∃ response, o.Answers range response :=
  ⟨⟨if range.isSome then 206 else 200, none, some (o.etag o.sha256), some (o.length - range.getD 0),
      range.map (rangeText · o.length), [.chunk (o.content.drop (range.getD 0))]⟩,
    ⟨rfl, nofun, rfl, rfl, fun start same => by rw [same]; rfl, [], (List.append_nil _).symm, rfl⟩⟩

def Source.helps (s : Content N Task) : (c : Call N) → Except Error (Reply c) → Prop
  | .active _, reply => reply = .ok true
  | .used, reply => ∃ (used : Nat) (bytes : Bytes), reply = .ok used ∧ (s.files o.n).part = some bytes ∧ used + o.length ≤ o.limit + bytes.length
  | .deadline, reply => ∃ left : Nat, reply = .ok left ∧ 0 < left
  | .send _ range, reply => ∃ sent response, reply = .ok sent ∧ sent.outcome = .ok response ∧ o.Answers range response
  | _, reply => ∃ value, reply = .ok value

variable (Task) in
def Source.obliging : Machine (Fallible Error (@Reply N)) (Content N Task) :=
  ⟨fun s c reply t => serves s c reply t ∧ o.helps s c reply, fun _ _ => False⟩

def Source.twice [DecidableEq Digest] (digest : Bytes → Digest) : Download N Unit :=
  (download digest o.etag o.limit o.n o.length o.sha256).settle fun
    | .ok value => .ok value
    | .error _ => download digest o.etag o.limit o.n o.length o.sha256

structure Source.Honest (digest : Bytes → Digest) : Prop where
  length : o.content.length = o.length
  digest : digest o.content = o.sha256
  fits : o.length ≤ o.limit
  bounded : o.length < 2 ^ 64

end Honesty

section Progress
variable {N Task Digest : Type} [DecidableEq N] {o : Source N Digest} {digest : Bytes → Digest} {p b : Bytes}
  {s : Content N Task} {α : Type} {F : Error → Content N Task → Prop}

abbrev Source.Brings (o : Source N Digest) (w : Download N α) (Q : α → Content N Task → Prop)
    (F : Error → Content N Task → Prop) (s : Content N Task) : Prop := (o.obliging Task).Settles w Q F s

theorem setPart_files {n : N} (known : s.files n = ⟨some p, none⟩) : (s.setPart n b).files n = ⟨some b, none⟩ := by
  unfold Content.setPart
  rw [put_self, known]

theorem after_brings {c : Call N} {f : Reply c → Download N α} {Q : α → Content N Task → Prop} (value : Reply c) (u : Content N Task)
    (can : serves s c (.ok value) u ∧ o.helps s c (.ok value))
    (next : ∀ reply t, serves s c reply t → o.helps s c reply → ∃ value, reply = .ok value ∧ o.Brings (f value) Q F t) :
    o.Brings (Work.andThen (request c) f) Q F s := by
  refine ⟨⟨.ok value, u, can⟩, fun reply t step => ?_⟩
  obtain ⟨value, rfl, brings⟩ := next reply t step.1 step.2
  exact brings

theorem quiet_brings {c : Call N} {f : Reply c → Download N α} {Q : α → Content N Task → Prop} (value : Reply c)
    (can : serves s c (.ok value) s ∧ o.helps s c (.ok value)) (still : ∀ reply t, serves s c reply t → t = s)
    (replies : ∀ reply, o.helps s c reply → ∃ value, reply = .ok value) (next : ∀ value, o.Brings (f value) Q F s) :
    o.Brings (Work.andThen (request c) f) Q F s := by
  refine after_brings value s can fun reply t step help => ?_
  obtain ⟨value, same⟩ := replies reply help
  exact ⟨value, same, still reply t step ▸ next value⟩

theorem going_brings {m : N} {bytes : Nat} {next : Download N Unit} {Q : Unit → Content N Task → Prop}
    (goes : o.Brings next Q F s) :
    o.Brings (do
      let active ← request (.active m)
      if active then next else pause m bytes) Q F s :=
  after_brings true s ⟨rfl, rfl⟩ fun _ _ step help => ⟨true, help, step ▸ goes⟩

theorem awaitResponse_brings {m : N} (offset : Nat) : ∀ changes,
    o.Brings (awaitResponse m offset changes) (fun _ t => t = s) F s
  | 0 => going_brings (Machine.Settles.ok rfl)
  | changes + 1 => going_brings (awaitResponse_brings offset changes)

theorem truncate_brings {f : Unit → Download N α} {Q : α → Content N Task → Prop} (known : s.files o.n = ⟨some p, none⟩)
    (next : ∀ t : Content N Task, t.files o.n = ⟨some [], none⟩ → o.Brings (f ()) Q F t) :
    o.Brings (Work.andThen (request (.truncate o.n)) f) Q F s := by
  refine after_brings () (s.setPart o.n []) ⟨.inl rfl, (), rfl⟩ fun reply t step help => ?_
  obtain ⟨value, rfl⟩ := help
  refine ⟨value, rfl, next t ?_⟩
  rcases step with rfl | ⟨_, failed⟩
  · exact setPart_files known
  · exact absurd rfl failed

theorem write_brings {f : Unit → Download N α} {Q : α → Content N Task → Prop} (known : s.files o.n = ⟨some p, none⟩)
    (next : ∀ t : Content N Task, t.files o.n = ⟨some (p ++ b), none⟩ → o.Brings (f ()) Q F t) :
    o.Brings (Work.andThen (request (.write o.n p.length b)) f) Q F s := by
  have part : (s.files o.n).part = some p := congrArg Files.part known
  refine after_brings () _ ⟨.inl ⟨p, b.length, part, rfl, fun _ => rfl⟩, (), rfl⟩ fun reply t step help => ?_
  obtain ⟨value, rfl⟩ := help
  refine ⟨value, rfl, next t ?_⟩
  rcases step with ⟨old, k, found, rfl, whole⟩ | ⟨_, failed⟩
  · cases part.symm.trans found
    rw [setPart_files known, whole rfl, List.take_length, overwrite_end]
  · exact absurd rfl failed

theorem stream_brings (bounded : o.length < 2 ^ 64) : ∀ (events : List Event) (p b : Bytes) (s : Content N Task),
    Carries events b → s.files o.n = ⟨some p, none⟩ → p.length + b.length = o.length →
    o.Brings (stream o.n o.length p.length events) (fun _ t => t.files o.n = ⟨some (p ++ b), none⟩) F s
  | [], p, b, s, carries, known, len => by
    cases carries
    refine going_brings (quiet_brings () ⟨rfl, (), rfl⟩ (fun _ _ h => h) (fun _ h => h) fun _ => ?_)
    refine Machine.Settles.ite (fun short => absurd len short) fun _ => Machine.Settles.ok ?_
    rw [known, List.append_nil]
  | .changed :: rest, p, b, s, carries, known, len => going_brings (stream_brings bounded rest p b s carries known len)
  | .chunk head :: rest, p, b, s, carries, known, len => by
    obtain ⟨tail, rfl, carries⟩ := carries
    rw [List.length_append] at len
    refine going_brings (Machine.Settles.ite (fun big => by omega) fun _ => Machine.Settles.ite (fun big => by omega) fun _ => ?_)
    refine write_brings known fun t known => ?_
    refine quiet_brings () ⟨rfl, (), rfl⟩ (fun _ _ h => h) (fun _ h => h) fun _ => ?_
    rw [← List.append_assoc, ← List.length_append]
    exact stream_brings bounded rest (p ++ head) tail t carries known (by rw [List.length_append]; omega)

/-- What follows the bytes that are there arrives, from there or from the start. -/
theorem receive_brings (honest : o.Honest digest) {response : Response}
    (answers : o.Answers (if 0 < p.length then some p.length else none) response) (known : s.files o.n = ⟨some p, none⟩)
    (small : p.length < o.length) :
    o.Brings (receive o.etag o.n o.length o.sha256 p.length response)
      (fun _ t => t.files o.n = ⟨some (p ++ o.content.drop p.length), none⟩) F s := by
  have drops : p.length + (o.content.drop p.length).length = o.length := by
    rw [List.length_drop, honest.length]
    omega
  have encoding : ¬response.contentEncoding.any (fun v => decide (v ≠ "identity")) = true := by
    intro other
    cases found : response.contentEncoding with
    | none => rw [found] at other; cases other
    | some v => rw [found] at other; exact of_decide_eq_true other (answers.encoding v found)
  by_cases empty : 0 < p.length
  · rw [if_pos empty] at answers
    have status : response.status = 206 := answers.status
    have start : response.start p.length = p.length := if_pos status
    have acceptable : accepted o.etag o.length o.sha256 p.length response = .ok p.length := by
      unfold accepted
      rw [start, if_neg (by omega), if_neg, if_neg]
      · exact fun wrong => wrong.2 (answers.contentRange _ rfl)
      · rintro (wrong | wrong | wrong)
        exacts [encoding wrong, wrong answers.etag, wrong answers.contentLength]
    unfold receive
    rw [if_neg (by omega), if_neg (by omega), acceptable]
    refine Machine.Settles.andThen (Q := fun _ t => t = s) (Machine.Settles.ite (fun zero => by omega) fun _ => Machine.Settles.ok rfl) ?_
    rintro _ t rfl
    exact quiet_brings () ⟨rfl, (), rfl⟩ (fun _ _ h => h) (fun _ h => h) fun _ =>
      stream_brings honest.bounded response.body p _ t answers.body known drops
  · rw [if_neg empty] at answers
    have none : p = [] := List.eq_nil_of_length_eq_zero (by omega)
    subst none
    have status : response.status = 200 := answers.status
    have acceptable : accepted o.etag o.length o.sha256 0 response = .ok 0 := by
      have start : response.start 0 = 0 := if_neg (by omega)
      unfold accepted
      rw [start, if_neg (by omega), if_neg, if_neg]
      · exact fun wrong => by omega
      · rintro (wrong | wrong | wrong)
        exacts [encoding wrong, wrong answers.etag, wrong answers.contentLength]
    unfold receive
    rw [if_neg (by omega), if_neg (by omega), List.length_nil, acceptable]
    refine truncate_brings known fun t known => ?_
    exact quiet_brings () ⟨rfl, (), rfl⟩ (fun _ _ h => h) (fun _ h => h) fun _ =>
      stream_brings honest.bounded response.body [] _ t answers.body known drops

theorem fetchRest_brings (honest : o.Honest digest) (known : s.files o.n = ⟨some p, none⟩) (small : p.length ≤ o.length) :
    o.Brings (fetchRest o.etag o.n o.length o.sha256 p.length)
      (fun _ t => t.files o.n = ⟨some (p ++ o.content.drop p.length), none⟩) F s := by
  refine Machine.Settles.ite (fun rest => ?_) fun whole => Machine.Settles.ok ?_
  · refine after_brings 1 s ⟨rfl, 1, rfl, Nat.one_pos⟩ fun reply t step help => ?_
    obtain ⟨left, rfl, positive⟩ := help
    cases step
    refine ⟨left, rfl, Machine.Settles.ite (fun none => absurd none positive.ne') fun _ => ?_⟩
    obtain ⟨response, answers⟩ := o.answered (if 0 < p.length then some p.length else none)
    refine after_brings ⟨0, .ok response⟩ s ⟨rfl, _, response, rfl, rfl, answers⟩ fun reply t step help => ?_
    obtain ⟨sent, response, rfl, replied, answers⟩ := help
    cases step
    refine ⟨sent, rfl, Machine.Settles.andThen (awaitResponse_brings p.length sent.changes) ?_⟩
    rintro _ t rfl
    rw [replied]
    exact receive_brings honest answers known rest
  · rw [known, List.drop_eq_nil_of_le (by rw [honest.length]; omega), List.append_nil]

section Contents
variable [DecidableEq Digest]

theorem prepare_brings (honest : o.Honest digest) (known : s.files o.n = ⟨some p, none⟩) :
    o.Brings (prepare digest o.limit o.n o.length o.sha256 p.length)
      (fun k t => ∃ q, t.files o.n = ⟨some q, none⟩ ∧ q.length = k ∧ k ≤ o.length ∧ (k = o.length → digest q = o.sha256) ∧
        (p = [] → q = [])) F s := by
  refine Machine.Settles.andThen
    (Q := fun k t => ∃ q, t.files o.n = ⟨some q, none⟩ ∧ q.length = k ∧ k ≤ o.length ∧ (p = [] → q = [])) ?_ ?_
  · refine Machine.Settles.ite (fun _ => ?_) fun small => Machine.Settles.ok ⟨p, known, rfl, Nat.le_of_not_lt small, fun h => h⟩
    exact truncate_brings known fun t known => Machine.Settles.ok ⟨[], known, rfl, Nat.zero_le _, fun _ => rfl⟩
  rintro k t ⟨q, known, rfl, small, begun⟩
  have part : (t.files o.n).part = some q := congrArg Files.part known
  refine after_brings 0 t ⟨rfl, 0, q, rfl, part, by have := honest.fits; show 0 + o.length ≤ _; omega⟩ fun reply t step help => ?_
  obtain ⟨used, bytes, rfl, found, room⟩ := help
  cases step
  cases part.symm.trans found
  refine ⟨used, rfl, Machine.Settles.ite (fun full => absurd full (by omega)) fun _ => ?_⟩
  refine Machine.Settles.ite (fun whole => ?_) fun short => Machine.Settles.ok ⟨q, known, rfl, small, fun whole => absurd whole short, begun⟩
  refine after_brings q _ ⟨⟨rfl, fun _ same => Except.ok.inj same ▸ part⟩, q, rfl⟩ fun reply t step help => ?_
  obtain ⟨bytes, rfl⟩ := help
  obtain ⟨rfl, tells⟩ := step
  cases part.symm.trans (tells bytes rfl)
  refine ⟨q, rfl, Machine.Settles.ite (fun _ => ?_) fun same => Machine.Settles.ok ⟨q, known, rfl, small, fun _ => not_ne_iff.mp same, begun⟩⟩
  refine truncate_brings known fun t known => Machine.Settles.ok ⟨[], known, rfl, Nat.zero_le _, fun zero => ?_, fun _ => rfl⟩
  rw [← List.eq_nil_of_length_eq_zero (honest.length.trans zero.symm), honest.digest]

def Source.Published (o : Source N Digest) (digest : Bytes → Digest) (s : Content N Task) : Prop :=
  ∃ bytes, (s.files o.n).blob = some bytes ∧ bytes.length = o.length ∧ digest bytes = o.sha256

theorem complete_brings (known : s.files o.n = ⟨some p, none⟩) (len : p.length = o.length) :
    o.Brings (complete digest o.n o.length o.sha256) (fun _ t => o.Published digest t)
      (fun _ t => t.files o.n = ⟨some [], none⟩ ∧ digest p ≠ o.sha256) s := by
  have part : (s.files o.n).part = some p := congrArg Files.part known
  refine quiet_brings () ⟨rfl, (), rfl⟩ (fun _ _ h => h) (fun _ h => h) fun _ => ?_
  refine after_brings p s ⟨⟨rfl, fun _ same => Except.ok.inj same ▸ part⟩, p, rfl⟩ fun reply t step help => ?_
  obtain ⟨bytes, rfl⟩ := help
  obtain ⟨rfl, tells⟩ := step
  cases part.symm.trans (tells bytes rfl)
  refine ⟨p, rfl, Machine.Settles.ite (fun differ => ?_) fun same => ?_⟩
  · refine quiet_brings () ⟨rfl, (), rfl⟩ (fun _ _ h => h) (fun _ h => h) fun _ => ?_
    refine truncate_brings known fun t known => ?_
    exact quiet_brings () ⟨rfl, (), rfl⟩ (fun _ _ h => h) (fun _ h => h) fun _ => Machine.Settles.fail ⟨known, differ⟩
  · refine quiet_brings () ⟨rfl, (), rfl⟩ (fun _ _ h => h) (fun _ h => h) fun _ => ?_
    refine after_brings () (t.publish o.n) ⟨.inl rfl, (), rfl⟩ fun reply u step help => ?_
    obtain ⟨value, rfl⟩ := help
    rcases step with rfl | ⟨_, failed⟩
    · refine ⟨value, rfl, quiet_brings () ⟨rfl, (), rfl⟩ (fun _ _ h => h) (fun _ h => h) fun _ => ?_⟩
      refine quiet_brings () ⟨rfl, (), rfl⟩ (fun _ _ h => h) (fun _ h => h) fun _ => ?_
      refine Machine.Settles.ask ⟨.ok (), _, rfl, (), rfl⟩ ?_
      rintro reply u ⟨rfl, value, rfl⟩
      refine ⟨value, rfl, p, ?_, len, not_ne_iff.mp same⟩
      rw [Content.publish, put_self, part]
    · exact absurd rfl failed

omit [DecidableEq Digest] in
theorem lease_brings {part : Option Bytes} (known : s.files o.n = ⟨part, none⟩) :
    o.Brings (lease o.n) (fun k t => t.files o.n = ⟨some (part.getD []), none⟩ ∧ k = (part.getD []).length) F s := by
  have opened : ∀ {q : Bytes} {t : Content N Task}, t.files o.n = ⟨some q, none⟩ →
      o.Brings (request (.openPartial o.n)) (fun _ t => t.files o.n = ⟨some q, none⟩) F t := by
    intro q t known
    refine Machine.Settles.ask ⟨.ok (), t, ⟨rfl, fun _ _ => by rw [known]; nofun⟩, (), rfl⟩ ?_
    rintro reply u ⟨⟨rfl, _⟩, value, rfl⟩
    exact ⟨value, rfl, known⟩
  refine after_brings part.isSome s ⟨⟨rfl, fun _ same => by rw [known]; exact (Except.ok.inj same).symm⟩, _, rfl⟩ fun reply t step help => ?_
  obtain ⟨there, rfl⟩ := help
  obtain ⟨rfl, tells⟩ := step
  have found : there = (t.files o.n).part.isSome := tells there rfl
  refine ⟨there, rfl, Machine.Settles.andThen (Q := fun _ t => t.files o.n = ⟨some (part.getD []), none⟩) ?_ fun _ u known => ?_⟩
  · rw [known] at found
    cases part with
    | some q => rw [found]; exact opened known
    | none =>
      rw [found]
      have absent : (t.files o.n).part = none := congrArg Files.part known
      refine after_brings () (t.setPart o.n []) ⟨.inl ⟨absent, .inl rfl⟩, (), rfl⟩ fun reply u step help => ?_
      obtain ⟨value, rfl⟩ := help
      rcases step with ⟨_, rfl | ⟨_, failed⟩⟩ | ⟨_, failed⟩
      · refine ⟨value, rfl, opened ?_⟩
        unfold Content.setPart
        rw [put_self, known]
        rfl
      · exact absurd rfl failed
      · exact absurd rfl failed
  refine quiet_brings () ⟨rfl, (), rfl⟩ (fun _ _ h => h) (fun _ h => h) fun _ => ?_
  refine Machine.Settles.ask ⟨.ok (part.getD []).length, u, ⟨rfl, fun k same => ⟨part.getD [], by rw [known], (Except.ok.inj same).symm⟩⟩, _, rfl⟩ ?_
  rintro reply v ⟨⟨rfl, tells⟩, k, rfl⟩
  obtain ⟨q, there, rfl⟩ := tells k rfl
  rw [known] at there
  cases there
  exact ⟨_, rfl, known, rfl⟩

theorem download_brings {part : Option Bytes} (honest : o.Honest digest) (known : s.files o.n = ⟨part, none⟩) :
    o.Brings (download digest o.etag o.limit o.n o.length o.sha256) (fun _ t => o.Published digest t)
      (fun _ t => t.files o.n = ⟨some [], none⟩ ∧ part.getD [] ≠ []) s := by
  refine Machine.Settles.andThen (Q := fun found t => found = false ∧ t = s) ?_ ?_
  · refine after_brings false s ⟨⟨rfl, fun _ same => by rw [known]; exact (Except.ok.inj same).symm⟩, _, rfl⟩ fun reply t step help => ?_
    obtain ⟨there, rfl⟩ := help
    obtain ⟨rfl, tells⟩ := step
    have found : there = (t.files o.n).blob.isSome := tells there rfl
    rw [known] at found
    refine ⟨there, rfl, ?_⟩
    rw [found]
    exact Machine.Settles.ok ⟨rfl, rfl⟩
  rintro found t ⟨rfl, rfl⟩
  refine Machine.Settles.andThen (lease_brings known) ?_
  rintro k t ⟨known, rfl⟩
  refine going_brings (Machine.Settles.andThen (prepare_brings honest known) ?_)
  rintro k t ⟨q, known, rfl, small, whole, begun⟩
  refine Machine.Settles.andThen (fetchRest_brings honest known small) fun _ t known => ?_
  have len : (q ++ o.content.drop q.length).length = o.length := by
    rw [List.length_append, List.length_drop, honest.length]
    omega
  refine (complete_brings known len).mono (fun _ _ h => h) ?_
  rintro _ t ⟨known, differ⟩
  refine ⟨known, fun none => differ ?_⟩
  rw [begun none, List.length_nil, List.drop_zero, List.nil_append, honest.digest]

theorem cached_brings {bytes : Bytes} (found : (s.files o.n).blob = some bytes) (len : bytes.length = o.length)
    (same : digest bytes = o.sha256) :
    o.Brings (download digest o.etag o.limit o.n o.length o.sha256) (fun _ t => o.Published digest t) F s := by
  refine Machine.Settles.andThen (Q := fun found t => found = true ∧ t = s) ?_ ?_
  · refine after_brings true s ⟨⟨rfl, fun _ told => by rw [found]; exact (Except.ok.inj told).symm⟩, _, rfl⟩ fun reply t step help => ?_
    obtain ⟨there, rfl⟩ := help
    obtain ⟨rfl, tells⟩ := step
    have told : there = (t.files o.n).blob.isSome := tells there rfl
    rw [found] at told
    refine ⟨there, rfl, ?_⟩
    rw [told]
    refine after_brings bytes t ⟨⟨rfl, fun _ read => Except.ok.inj read ▸ found⟩, bytes, rfl⟩ fun reply u step help => ?_
    obtain ⟨read, rfl⟩ := help
    obtain ⟨rfl, tells⟩ := step
    cases found.symm.trans (tells read rfl)
    refine ⟨bytes, rfl, Machine.Settles.ite (fun wrong => ?_) fun _ => Machine.Settles.ok ⟨rfl, rfl⟩⟩
    rcases wrong with wrong | wrong
    · exact absurd len wrong
    · exact absurd same wrong
  rintro there t ⟨rfl, rfl⟩
  refine Machine.Settles.ask ⟨.ok (), t, rfl, (), rfl⟩ ?_
  rintro reply u ⟨rfl, value, rfl⟩
  exact ⟨value, rfl, bytes, found, len, same⟩

theorem twice_brings (honest : o.Honest digest)
    (exact : ∀ bytes, (s.files o.n).blob = some bytes → bytes.length = o.length ∧ digest bytes = o.sha256) :
    o.Brings (o.twice digest) (fun _ t => o.Published digest t) (fun _ _ => False) s := by
  cases published : (s.files o.n).blob with
  | some bytes =>
    obtain ⟨len, same⟩ := exact bytes published
    exact Machine.Settles.settle (F := fun _ _ => False) (cached_brings published len same) (fun _ _ h => Machine.Settles.ok h)
      fun _ _ h => h.elim
  | none =>
    have known : s.files o.n = ⟨(s.files o.n).part, none⟩ := by rw [← published]
    refine (download_brings honest known).settle (fun _ _ h => Machine.Settles.ok h) ?_
    rintro _ t ⟨known, _⟩
    exact (download_brings honest known).mono (fun _ _ h => h) fun _ _ h => h.2 rfl

/-- In every run the published contents are exact and no file of a referenced name is removed; and from the partial files that
can be there, two attempts complete a content while everything helps. -/
theorem downloads_resume [DecidableEq Task] {etag : Digest → String} {limit : Nat} {name : Nat → Digest → N}
    (injective : ∀ l d l' d', name l d = name l' d' → l = l' ∧ d = d') {moves : List (Move (Job Digest Task N) (Call N))}
    {h : Host (Fallible Error (@Reply N)) (Content N Task)}
    (run : Runs (HostStep (contentMachine N Task) (starts digest etag limit name)) ⟨⟨fun _ => ⟨none, none⟩, [], []⟩, none⟩ moves h) :
    Exact digest name h.state ∧ ∀ (o : Source N Digest) (s : Content N Task), o.n = name o.length o.sha256 → o.Honest digest →
      Lost h.state s → o.Brings (o.twice digest) (fun _ t => o.Published digest t) (fun _ _ => False) s := by
  have exact := run_exact injective run
  refine ⟨exact, fun o s named honest lost => twice_brings honest fun bytes found => ?_⟩
  rw [lost.1, named] at found
  exact exact.blobs _ _ _ found

end Contents

end Progress

section Sample

def pairSource : Source (Nat × Bytes) Bytes := ⟨fun _ => "etag", 10, (2, [7, 8]), 2, [7, 8], [7, 8]⟩

def bareContent : Content (Nat × Bytes) Nat := ⟨fun _ => ⟨none, none⟩, [], []⟩

/-- A download stops after it created its partial file, which then holds a wrong byte. -/
theorem downloads_resume_sample : ∃ moves h, Runs (HostStep (contentMachine (Nat × Bytes) Nat) (starts id (fun _ => "etag") 10 Prod.mk))
      ⟨bareContent, none⟩ moves h ∧
    pairSource.Brings (pairSource.twice id) (fun _ t => pairSource.Published id t) (fun _ _ => False)
      (h.state.setPart (2, [7, 8]) [9]) := by
  have begins : starts id (fun _ => "etag") 10 Prod.mk bareContent (.download 2 [7, 8]) bareContent
      (detached (download id (fun _ => "etag") 10 (2, [7, 8]) 2 [7, 8])) := ⟨⟨fun _ => rfl, rfl, rfl⟩, rfl⟩
  have unpublished : serves bareContent (.blobExists (2, [7, 8])) (.ok false) bareContent :=
    ⟨rfl, fun _ same => (Except.ok.inj same).symm⟩
  have unbegun : serves bareContent (.partialExists (2, [7, 8])) (.ok false) bareContent :=
    ⟨rfl, fun _ same => (Except.ok.inj same).symm⟩
  have created : serves bareContent (.create (2, [7, 8])) (.ok ()) (bareContent.setPart (2, [7, 8]) []) :=
    .inl ⟨rfl, .inl rfl⟩
  have run : Runs (HostStep (contentMachine (Nat × Bytes) Nat) (starts id (fun _ => "etag") 10 Prod.mk)) ⟨bareContent, none⟩ _ _ :=
    ((((Runs.one (.start begins)).next (.act unpublished)).next (.act unbegun)).next (.act created)).next .crash
  refine ⟨_, _, run, (downloads_resume (fun _ _ _ _ same => ⟨congrArg Prod.fst same, congrArg Prod.snd same⟩) run).2
    pairSource _ rfl ⟨rfl, rfl, by decide, by decide⟩ ⟨?_, rfl, rfl⟩⟩
  exact put_blob rfl

end Sample

end RssMdmAgent.ContentDownloads
