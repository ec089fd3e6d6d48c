import RssMdmAgent.PlanModel

set_option autoImplicit false

/-! # The JSON form of execution inputs -/

namespace RssMdmAgent.PlanCodec
open ContractIdentity JsonValue JsonCodec NetworkHosts PlanModel
open ProgramInstructions (Platform OsAccountRef RunAs SessionRequirement SoftwareOperation SoftwareUpgrade SoftwarePhase)

/-! ## Texts and numbers -/

def identifier : Codec Identifier :=
  .parsed (·.value) (fun s => if h : validId s = true then some ⟨s, h⟩ else none) fun x => dif_pos x.valid

def digest : Codec Digest :=
  .parsed (·.value) (fun s => if h : validDigest s = true then some ⟨s, h⟩ else none) fun x => dif_pos x.valid

def packageValue : Codec PackageValue :=
  .parsed (·.value) (fun s => if h : validPackageValue s = true then some ⟨s, h⟩ else none) fun x => dif_pos x.valid

def environmentKey (s : String) : Option EnvironmentKey := if h : validEnvironmentKey s = true then some ⟨s, h⟩ else none

theorem environmentKey_value (key : EnvironmentKey) : environmentKey key.value = some key := dif_pos key.valid

theorem version_static (_ : true = true) (x : Unit) : id x = x := rfl

/-- The only version of the contract. -/
def version : Codec Unit where
  write _ := .number (.int 1)
  read
    | .number (.int 1) => some ()
    | _ => none
  tidy := id
  static := true
  read_write _ := rfl
  write_tidy _ := rfl
  tidy_static := version_static
  wellFormed _ := trivial

def integer : Codec Int where
  write n := .number (.int n)
  read
    | .number (.int n) => some n
    | _ => none
  tidy := id
  static := true
  read_write _ := rfl
  write_tidy _ := rfl
  tidy_static _ _ := rfl
  wellFormed _ := trivial

def exitCode : Codec ExitCode := integer.guarded _ fun _ h => h

/-! ## Identities and contexts -/

def platformName : Platform → String
  | .windows => "windows"
  | .macos => "macos"
  | .linux => "linux"

def platform : Codec Platform := .enumeration platformName [.windows, .macos, .linux] (by intro x; cases x <;> decide) (by decide)

def versionedRef : Codec VersionedRef :=
  .record (((Members.one "id" identifier).and (.one "revision" identifier)).iso
    ⟨fun x => ⟨x.1, x.2⟩, fun x => (x.id, x.revision), fun _ => rfl, fun _ => rfl⟩) (by decide)

theorem versionedRef_solid (x : VersionedRef) : versionedRef.write x ≠ .null := Value.noConfusion

def authority : Codec ContractPlan.Authority :=
  .tagged "kind" (((Cases.one "local" (.one "id" identifier) (by decide)).or
      ((Cases.one "enterprise" ((Members.one "id" identifier).and (.one "tenant" identifier)) (by decide)).or
        (.one "test" (.one "id" identifier) (by decide)) (by decide)) (by decide)).iso
    ⟨fun
      | .inl id => .localAuthority id
      | .inr (.inl (id, tenant)) => .enterprise id tenant
      | .inr (.inr id) => .test id,
    fun
      | .localAuthority id => .inl id
      | .enterprise id tenant => .inr (.inl (id, tenant))
      | .test id => .inr (.inr id),
    by rintro (_ | ⟨_, _⟩ | _) <;> rfl, by rintro (_ | _ | _) <;> rfl⟩) (by decide)

def osAccountRef : Codec OsAccountRef :=
  .record (((Members.one "platform" platform).and (.one "subject" identifier)).iso
    ⟨fun x => ⟨x.1, x.2⟩, fun x => (x.platform, x.subject), fun _ => rfl, fun _ => rfl⟩) (by decide)

def osSessionRef : Codec OsSessionRef :=
  .record (((Members.one "device" identifier).and ((Members.one "account" osAccountRef).and (.one "session" identifier))).iso
    ⟨fun x => ⟨x.1, x.2.1, x.2.2⟩, fun x => (x.device, x.account, x.session), fun _ => rfl, fun _ => rfl⟩) (by decide)

def nativeContextRef : Codec NativeContextRef :=
  .record (((Members.one "id" identifier).and (.one "generation" identifier)).iso
    ⟨fun x => ⟨x.1, x.2⟩, fun x => (x.id, x.generation), fun _ => rfl, fun _ => rfl⟩) (by decide)

def backendTrigger : Codec BackendTrigger :=
  .tagged "kind" (((Cases.one "automatic" .none (by decide)).or
      ((Cases.one "human" (.one "osSession" osSessionRef) (by decide)).or
        (.one "ai" ((Members.one "context" nativeContextRef).and ((Members.one "osSession" osSessionRef).and
          ((Members.one "config" versionedRef).and ((Members.one "conversation" identifier).and (.one "toolCall" identifier)))))
          (by decide)) (by decide)) (by decide)).iso
    ⟨fun
      | .inl () => .automatic
      | .inr (.inl session) => .human session
      | .inr (.inr (context, session, config, conversation, call)) => .ai context session config conversation call,
    fun
      | .automatic => .inl ()
      | .human session => .inr (.inl session)
      | .ai context session config conversation call => .inr (.inr (context, session, config, conversation, call)),
    by rintro (_ | _ | ⟨_, _, _, _, _⟩) <;> rfl, by rintro (_ | _ | _) <;> rfl⟩) (by decide)

def initiator : Codec Initiator :=
  .tagged "kind" (((Cases.one "backend" ((Members.one "task" identifier).and ((Members.one "attempt" identifier).and
        (.one "trigger" backendTrigger))) (by decide)).or
      ((Cases.one "human" (.one "osSession" osSessionRef) (by decide)).or
        ((Cases.one "ai" ((Members.one "provider" identifier).and ((Members.one "osSession" osSessionRef).and
          ((Members.one "config" versionedRef).and ((Members.one "conversation" identifier).and (.one "toolCall" identifier)))))
          (by decide)).or
          (.one "policy" (.one "policy" versionedRef) (by decide)) (by decide)) (by decide)) (by decide)).iso
    ⟨fun
      | .inl (task, attempt, trigger) => .backend task attempt trigger
      | .inr (.inl session) => .human session
      | .inr (.inr (.inl (provider, session, config, conversation, call))) => .ai provider session config conversation call
      | .inr (.inr (.inr policy)) => .policy policy,
    fun
      | .backend task attempt trigger => .inl (task, attempt, trigger)
      | .human session => .inr (.inl session)
      | .ai provider session config conversation call => .inr (.inr (.inl (provider, session, config, conversation, call)))
      | .policy policy => .inr (.inr (.inr policy)),
    by rintro (⟨_, _, _⟩ | _ | ⟨_, _, _, _, _⟩ | _) <;> rfl, by rintro (_ | _ | _ | _) <;> rfl⟩) (by decide)

def targetScope : Codec TargetScope :=
  .tagged "kind" (((Cases.one "device" .none (by decide)).or (.one "user" (.one "account" osAccountRef) (by decide)) (by decide)).iso
    ⟨fun
      | .inl () => .device
      | .inr account => .user account,
    fun
      | .device => .inl ()
      | .user account => .inr account,
    by rintro (_ | _) <;> rfl, by rintro (_ | _) <;> rfl⟩) (by decide)

def target : Codec Target :=
  .record (((Members.one "device" identifier).and ((Members.one "platform" platform).and (.one "scope" targetScope))).iso
    ⟨fun x => ⟨x.1, x.2.1, x.2.2⟩, fun x => (x.device, x.platform, x.scope), fun _ => rfl, fun _ => rfl⟩) (by decide)

def operation : Codec Operation :=
  .record (((Members.one "action" identifier).and (.one "resource" versionedRef)).iso
    ⟨fun x => ⟨x.1, x.2⟩, fun x => (x.action, x.resource), fun _ => rfl, fun _ => rfl⟩) (by decide)

def runAs : Codec RunAs :=
  .tagged "kind" (((Cases.one "user" (.one "account" osAccountRef) (by decide)).or
      (.one "system" (.one "platform" platform) (by decide)) (by decide)).iso
    ⟨fun
      | .inl account => .user account
      | .inr platform => .system platform,
    fun
      | .user account => .inl account
      | .system platform => .inr platform,
    by rintro (_ | _) <;> rfl, by rintro (_ | _) <;> rfl⟩) (by decide)

def sessionRequirement : Codec SessionRequirement :=
  .tagged "kind" (((Cases.one "notRequired" .none (by decide)).or
      (.one "activeUser" ((Members.one "account" osAccountRef).and (.one "session" identifier)) (by decide)) (by decide)).iso
    ⟨fun
      | .inl () => .notRequired
      | .inr (account, session) => .activeUser account session,
    fun
      | .notRequired => .inl ()
      | .activeUser account session => .inr (account, session),
    by rintro (_ | ⟨_, _⟩) <;> rfl, by rintro (_ | _) <;> rfl⟩) (by decide)

def inputValue : Codec InputValue :=
  .tagged "kind" (((Cases.one "literal" (.one "value" .dynamic) (by decide)).or
      (.one "secret" (.one "reference" versionedRef) (by decide)) (by decide)).iso
    ⟨fun
      | .inl value => .literal value
      | .inr reference => .secret reference,
    fun
      | .literal value => .inl value
      | .secret reference => .inr reference,
    by rintro (_ | _) <;> rfl, by rintro (_ | _) <;> rfl⟩) (by decide)

def executionRequest : Codec ExecutionRequest :=
  .record (((Members.one "schemaVersion" version).and ((Members.one "requestId" identifier).and ((Members.one "authority" authority).and
      ((Members.one "actor" identifier).and ((Members.one "initiator" initiator).and
        ((Members.optional "delegation" versionedRef versionedRef_solid).and ((Members.one "target" target).and
          ((Members.one "operation" operation).and (.one "parameters" (.map some (fun _ => rfl) inputValue)))))))))).iso
    ⟨fun x => ⟨x.2.1, x.2.2.1, x.2.2.2.1, x.2.2.2.2.1, x.2.2.2.2.2.1, x.2.2.2.2.2.2.1, x.2.2.2.2.2.2.2.1, x.2.2.2.2.2.2.2.2⟩,
    fun x => ((), x.requestId, x.authority, x.actor, x.initiator, x.delegation, x.target, x.operation, x.parameters),
    fun _ => rfl, fun _ => rfl⟩) (by decide)

/-! ## Launches -/

def exactArtifactRef : Codec ExactArtifactRef :=
  .record (((Members.one "resource" versionedRef).and (.one "sha256" digest)).iso
    ⟨fun x => ⟨x.1, x.2⟩, fun x => (x.resource, x.sha256), fun _ => rfl, fun _ => rfl⟩) (by decide)

def interpreterRef : Codec InterpreterRef :=
  .record (((Members.one "artifact" exactArtifactRef).and (.one "profile" versionedRef)).iso
    ⟨fun x => ⟨x.1, x.2⟩, fun x => (x.artifact, x.profile), fun _ => rfl, fun _ => rfl⟩) (by decide)

def launchArg : Codec LaunchArg :=
  .tagged "kind" (((Cases.one "literal" (.one "value" .text) (by decide)).or (.one "artifactPath" .none (by decide)) (by decide)).iso
    ⟨fun
      | .inl value => .literal value
      | .inr () => .artifactPath,
    fun
      | .literal value => .inl value
      | .artifactPath => .inr (),
    by rintro (_ | _) <;> rfl, by rintro (_ | _) <;> rfl⟩) (by decide)

def artifactEncodingName : ArtifactEncoding → String
  | .utf8 => "utf8"
  | .utf8Bom => "utf8Bom"
  | .utf16LeBom => "utf16LeBom"

def artifactEncoding : Codec ArtifactEncoding :=
  .enumeration artifactEncodingName [.utf8, .utf8Bom, .utf16LeBom] (by intro x; cases x <;> decide) (by decide)

def textEncodingName : TextEncoding → String
  | .utf8 => "utf8"
  | .utf16Le => "utf16Le"

def textEncoding : Codec TextEncoding := .enumeration textEncodingName [.utf8, .utf16Le] (by intro x; cases x <;> decide) (by decide)

def standardInput : Codec StandardInput :=
  .tagged "kind" (((Cases.one "closed" .none (by decide)).or
      (.one "controlled" ((Members.one "reference" versionedRef).and ((Members.one "encoding" textEncoding).and
        (.one "maxBytes" (.unsigned 64)))) (by decide)) (by decide)).iso
    ⟨fun
      | .inl () => .closed
      | .inr (reference, encoding, maxBytes) => .controlled reference encoding maxBytes,
    fun
      | .closed => .inl ()
      | .controlled reference encoding maxBytes => .inr (reference, encoding, maxBytes),
    by rintro (_ | ⟨_, _, _⟩) <;> rfl, by rintro (_ | _) <;> rfl⟩) (by decide)

def outputFormat : Codec OutputFormat :=
  .tagged "kind" (((Cases.one "text" .none (by decide)).or (.one "json" (.one "maxRows" (.unsigned 16)) (by decide)) (by decide)).iso
    ⟨fun
      | .inl () => .text
      | .inr maxRows => .json maxRows,
    fun
      | .text => .inl ()
      | .json maxRows => .inr maxRows,
    by rintro (_ | _) <;> rfl, by rintro (_ | _) <;> rfl⟩) (by decide)

def outputSpec : Codec OutputSpec :=
  .record (((Members.one "format" outputFormat).and ((Members.one "stdout" textEncoding).and (.one "stderr" textEncoding))).iso
    ⟨fun x => ⟨x.1, x.2.1, x.2.2⟩, fun x => (x.format, x.stdout, x.stderr), fun _ => rfl, fun _ => rfl⟩) (by decide)

def environment : Codec Environment := .map environmentKey environmentKey_value inputValue

def launchSpec : Codec LaunchSpec :=
  .record (((Members.one "artifact" exactArtifactRef).and ((Members.one "interpreter" interpreterRef).and
      ((Members.one "argv" launchArg.list).and ((Members.one "artifactEncoding" artifactEncoding).and
        ((Members.one "stdin" standardInput).and ((Members.one "output" outputSpec).and ((Members.one "cwd" .text).and
          (.one "env" environment)))))))).iso
    ⟨fun x => ⟨x.1, x.2.1, x.2.2.1, x.2.2.2.1, x.2.2.2.2.1, x.2.2.2.2.2.1, x.2.2.2.2.2.2.1, x.2.2.2.2.2.2.2⟩,
    fun x => (x.artifact, x.interpreter, x.argv, x.artifactEncoding, x.stdin, x.output, x.cwd, x.env),
    fun _ => rfl, fun _ => rfl⟩) (by decide)

/-! ## Restrictions and budgets -/

section Constraints
variable [HostParser]

def networkSchemeName : NetworkScheme → String
  | .http => "http"
  | .https => "https"
  | .tcp => "tcp"
  | .udp => "udp"

def networkScheme : Codec NetworkScheme :=
  .enumeration networkSchemeName [.http, .https, .tcp, .udp] (by intro x; cases x <;> decide) (by decide)

def networkHost : Codec NetworkHost := .parsed (·.value) NetworkHost.new NetworkHost.new_value

def port : Codec { n : BitVec 16 // n ≠ 0 } := (Codec.unsigned 16).guarded _ fun _ h => h

def networkDestination : Codec NetworkDestination :=
  .record (((Members.one "scheme" networkScheme).and ((Members.one "host" networkHost).and (.one "port" port))).iso
    ⟨fun x => ⟨x.1, x.2.1, x.2.2⟩, fun x => (x.scheme, x.host, x.port), fun _ => rfl, fun _ => rfl⟩)
    (by change ["scheme", "host", "port"].Nodup; decide)

def networkAccess : Codec NetworkAccess :=
  .tagged "kind" (((Cases.one "denied" .none (by decide)).or
      (.one "allowlist" (.one "destinations" networkDestination.list) (List.nodup_singleton _))
        (by change ∀ tag ∈ ["allowlist"], tag ∉ ["denied"]; decide)).iso
    ⟨fun
      | .inl () => .denied
      | .inr destinations => .allowlist destinations,
    fun
      | .denied => .inl ()
      | .allowlist destinations => .inr destinations,
    by rintro (_ | _) <;> rfl, by rintro (_ | _) <;> rfl⟩) (by change "kind" ∉ ["destinations"]; decide)

def isolationPolicy : Codec IsolationPolicy :=
  .tagged "kind" (((Cases.one "osIdentity" .none (by decide)).or
      (.one "restricted" ((Members.one "network" networkAccess).and ((Members.one "readPaths" Codec.text.list).and
        ((Members.one "writePaths" Codec.text.list).and ((Members.one "allowChildProcesses" .bool).and
          (.one "requireSandbox" .bool)))))
        (by change ["network", "readPaths", "writePaths", "allowChildProcesses", "requireSandbox"].Nodup; decide))
        (by change ∀ tag ∈ ["restricted"], tag ∉ ["osIdentity"]; decide)).iso
    ⟨fun
      | .inl () => .osIdentity
      | .inr (network, reads, writes, children, sandbox) => .restricted network reads writes children sandbox,
    fun
      | .osIdentity => .inl ()
      | .restricted network reads writes children sandbox => .inr (network, reads, writes, children, sandbox),
    by rintro (_ | ⟨_, _, _, _, _⟩) <;> rfl, by rintro (_ | _) <;> rfl⟩)
    (by change "kind" ∉ ["network", "readPaths", "writePaths", "allowChildProcesses", "requireSandbox"]; decide)

end Constraints

def executionBudget : Codec ExecutionBudget :=
  .record (((Members.one "totalTimeoutMs" (.unsigned 64)).and ((Members.one "totalOutputBytes" (.unsigned 64)).and
      (.one "maxAttempts" (.unsigned 32)))).iso
    ⟨fun x => ⟨x.1, x.2.1, x.2.2⟩, fun x => (x.totalTimeoutMs, x.totalOutputBytes, x.maxAttempts), fun _ => rfl, fun _ => rfl⟩) (by decide)

def validityWindow : Codec ValidityWindow :=
  .record (((Members.one "notBeforeUnixMs" (.unsigned 64)).and (.one "expiresAtUnixMs" (.unsigned 64))).iso
    ⟨fun x => ⟨x.1, x.2⟩, fun x => (x.notBeforeUnixMs, x.expiresAtUnixMs), fun _ => rfl, fun _ => rfl⟩) (by decide)

/-! ## Software programs -/

def bundleLimits : Codec BundleLimits :=
  .record (((Members.one "archiveBytes" (.unsigned 64)).and ((Members.one "files" (.unsigned 32)).and
      ((Members.one "fileBytes" (.unsigned 64)).and ((Members.one "expandedBytes" (.unsigned 64)).and (.one "depth" (.unsigned 32)))))).iso
    ⟨fun x => ⟨x.1, x.2.1, x.2.2.1, x.2.2.2.1, x.2.2.2.2⟩, fun x => (x.archiveBytes, x.files, x.fileBytes, x.expandedBytes, x.depth),
    fun _ => rfl, fun _ => rfl⟩) (by decide)

def bundleFile : Codec BundleFile :=
  .record (((Members.one "length" (.unsigned 64)).and
      (.one "sha256" ((Codec.unsigned 8).list.guarded _ fun bytes h => by
        rw [← h]; exact List.length_map _))).iso
    ⟨fun x => ⟨x.1, x.2⟩, fun x => (x.length, x.sha256), fun _ => rfl, fun _ => rfl⟩) (by decide)

def bundleManifest : Codec BundleManifest :=
  .record (((Members.one "schema" version).and ((Members.one "platform" platform).and ((Members.one "architecture" packageValue).and
      (.one "entries" (.map some (fun _ => rfl) bundleFile))))).iso
    ⟨fun x => ⟨x.2.1, x.2.2.1, x.2.2.2⟩, fun x => ((), x.platform, x.architecture, x.entries), fun _ => rfl, fun _ => rfl⟩) (by decide)

def nativeVersion : Codec NativeVersion :=
  (Codec.unsigned 16).list.guarded _ fun parts h => by rw [← h]; exact List.length_map _

def msixIdentity : Codec MsixIdentity :=
  .record (((Members.one "name" packageValue).and ((Members.one "publisher" packageValue).and ((Members.one "version" nativeVersion).and
      ((Members.one "architecture" packageValue).and (.one "resourceId" .text))))).iso
    ⟨fun x => ⟨x.1, x.2.1, x.2.2.1, x.2.2.2.1, x.2.2.2.2⟩, fun x => (x.name, x.publisher, x.version, x.architecture, x.resourceId),
    fun _ => rfl, fun _ => rfl⟩) (by decide)

def msixMember : Codec MsixMember :=
  .record (((Members.one "path" .text).and ((Members.one "identity" msixIdentity).and ((Members.one "length" (.unsigned 64)).and
      (.one "sha256" digest)))).iso
    ⟨fun x => ⟨x.1, x.2.1, x.2.2.1, x.2.2.2⟩, fun x => (x.path, x.identity, x.length, x.sha256), fun _ => rfl, fun _ => rfl⟩) (by decide)

def msixContainer : Codec MsixContainer :=
  .tagged "kind" (((Cases.one "package" .none (by decide)).or (.one "bundle" (.one "members" msixMember.list) (by decide)) (by decide)).iso
    ⟨fun
      | .inl () => .package
      | .inr members => .bundle members,
    fun
      | .package => .inl ()
      | .bundle members => .inr members,
    by rintro (_ | _) <;> rfl, by rintro (_ | _) <;> rfl⟩) (by decide)

def msixDeployment : Codec MsixDeployment :=
  .tagged "kind" (((Cases.one "targetUserRegistration" .none (by decide)).or (.one "deviceProvisioning" .none (by decide)) (by decide)).iso
    ⟨fun
      | .inl () => .targetUserRegistration
      | .inr () => .deviceProvisioning,
    fun
      | .targetUserRegistration => .inl ()
      | .deviceProvisioning => .inr (),
    by rintro (_ | _) <;> rfl, by rintro (_ | _) <;> rfl⟩) (by decide)

def signedArtifact : Members (ExactArtifactRef × PackageValue) := (Members.one "artifact" exactArtifactRef).and (.one "publisher" packageValue)

def softwareSignature : Codec SoftwareSignature :=
  .tagged "kind" (((Cases.one "authenticode" signedArtifact (by decide)).or
      ((Cases.one "appleDeveloperId" signedArtifact (by decide)).or (.one "msix" signedArtifact (by decide)) (by decide)) (by decide)).iso
    ⟨fun
      | .inl (artifact, publisher) => .authenticode artifact publisher
      | .inr (.inl (artifact, publisher)) => .appleDeveloperId artifact publisher
      | .inr (.inr (artifact, publisher)) => .msix artifact publisher,
    fun
      | .authenticode artifact publisher => .inl (artifact, publisher)
      | .appleDeveloperId artifact publisher => .inr (.inl (artifact, publisher))
      | .msix artifact publisher => .inr (.inr (artifact, publisher)),
    by rintro (⟨_, _⟩ | ⟨_, _⟩ | ⟨_, _⟩) <;> rfl, by rintro (_ | _ | _) <;> rfl⟩) (by decide)

def softwareFormat : Codec SoftwareFormat :=
  .tagged "kind" (((Cases.one "msi" .none (by decide)).or
      ((Cases.one "pkg" .none (by decide)).or
      ((Cases.one "winget" (.one "exportIdentity" identifier) (by decide)).or
      ((Cases.one "homebrew" (.one "exportIdentity" identifier) (by decide)).or
      ((Cases.one "bundle" ((Members.one "manifest" bundleManifest).and (.one "limits" bundleLimits)) (by decide)).or
      ((Cases.one "exe" (.one "layout" (.map some (fun _ => rfl) exactArtifactRef)) (by decide)).or
      ((Cases.one "msix" ((Members.one "container" msixContainer).and ((Members.one "identity" msixIdentity).and
        ((Members.one "dependencies" msixIdentity.list).and ((Members.one "deployment" msixDeployment).and
          ((Members.one "minimumOs" nativeVersion).and ((Members.one "requireSideload" .bool).and
            (.one "allowUnsigned" .bool))))))) (by decide)).or
      ((Cases.one "dmgApp" ((Members.one "volume" packageValue).and ((Members.one "path" .text).and
        ((Members.one "bundleId" packageValue).and ((Members.one "version" packageValue).and
          (.one "targetName" .text))))) (by decide)).or
      (.one "dmgPkg" ((Members.one "volume" packageValue).and ((Members.one "path" .text).and ((Members.one "length" (.unsigned 64)).and
        ((Members.one "sha256" digest).and (.one "receipt" packageValue))))) (by decide))
      (by decide)) (by decide)) (by decide)) (by decide)) (by decide)) (by decide)) (by decide)) (by decide)).iso
    ⟨fun
      | .inl () => .msi
      | .inr (.inl ()) => .pkg
      | .inr (.inr (.inl identity)) => .winget identity
      | .inr (.inr (.inr (.inl identity))) => .homebrew identity
      | .inr (.inr (.inr (.inr (.inl (manifest, limits))))) => .bundle manifest limits
      | .inr (.inr (.inr (.inr (.inr (.inl layout))))) => .exe layout
      | .inr (.inr (.inr (.inr (.inr (.inr (.inl (container, identity, dependencies, deployment, minimum, sideload, unsigned))))))) =>
        .msix container identity dependencies deployment minimum sideload unsigned
      | .inr (.inr (.inr (.inr (.inr (.inr (.inr (.inl (volume, path, bundleId, version, name)))))))) => .dmgApp volume path bundleId version name
      | .inr (.inr (.inr (.inr (.inr (.inr (.inr (.inr (volume, path, length, sha256, receipt)))))))) => .dmgPkg volume path length sha256 receipt,
    fun
      | .msi => .inl ()
      | .pkg => .inr (.inl ())
      | .winget identity => .inr (.inr (.inl identity))
      | .homebrew identity => .inr (.inr (.inr (.inl identity)))
      | .bundle manifest limits => .inr (.inr (.inr (.inr (.inl (manifest, limits)))))
      | .exe layout => .inr (.inr (.inr (.inr (.inr (.inl layout)))))
      | .msix container identity dependencies deployment minimum sideload unsigned =>
        .inr (.inr (.inr (.inr (.inr (.inr (.inl (container, identity, dependencies, deployment, minimum, sideload, unsigned)))))))
      | .dmgApp volume path bundleId version name => .inr (.inr (.inr (.inr (.inr (.inr (.inr (.inl (volume, path, bundleId, version, name))))))))
      | .dmgPkg volume path length sha256 receipt =>
        .inr (.inr (.inr (.inr (.inr (.inr (.inr (.inr (volume, path, length, sha256, receipt)))))))),
    by rintro (_ | _ | _ | _ | ⟨_, _⟩ | _ | ⟨_, _, _, _, _, _, _⟩ | ⟨_, _, _, _, _⟩ | ⟨_, _, _, _, _⟩) <;> rfl,
    by rintro (_ | _ | _ | _ | _ | _ | _ | _ | _) <;> rfl⟩) (by decide)

def softwareExitCodes : Codec SoftwareExitCodes :=
  .record (((Members.one "success" (exitCode.set fun _ => rfl)).and (.one "reboot" (exitCode.set fun _ => rfl))).iso
    ⟨fun x => ⟨x.1, x.2⟩, fun x => (x.success, x.reboot), fun _ => rfl, fun _ => rfl⟩) (by decide)

def softwareInvocation : Codec SoftwareInvocation :=
  .record (((Members.one "launch" launchSpec).and ((Members.one "runAs" runAs).and
      ((Members.one "sessionRequirement" sessionRequirement).and ((Members.one "timeoutMs" (.unsigned 64)).and
        ((Members.one "outputBytes" (.unsigned 64)).and (.one "exitCodes" softwareExitCodes)))))).iso
    ⟨fun x => ⟨x.1, x.2.1, x.2.2.1, x.2.2.2.1, x.2.2.2.2.1, x.2.2.2.2.2⟩,
    fun x => (x.launch, x.runAs, x.sessionRequirement, x.timeoutMs, x.outputBytes, x.exitCodes), fun _ => rfl, fun _ => rfl⟩) (by decide)

def softwareDetector : Codec SoftwareDetector :=
  .tagged "kind" (((Cases.one "msiProduct" ((Members.one "productCode" .text).and ((Members.one "version" packageValue).and
        ((Members.one "runAs" runAs).and (.one "sessionRequirement" sessionRequirement)))) (by decide)).or
      ((Cases.one "pkgReceipt" ((Members.one "receipt" .text).and ((Members.one "version" packageValue).and
        ((Members.one "runAs" runAs).and (.one "sessionRequirement" sessionRequirement)))) (by decide)).or
        (.one "script" (.one "invocation" softwareInvocation) (by decide)) (by decide)) (by decide)).iso
    ⟨fun
      | .inl (code, version, runAs, session) => .msiProduct code version runAs session
      | .inr (.inl (receipt, version, runAs, session)) => .pkgReceipt receipt version runAs session
      | .inr (.inr invocation) => .script invocation,
    fun
      | .msiProduct code version runAs session => .inl (code, version, runAs, session)
      | .pkgReceipt receipt version runAs session => .inr (.inl (receipt, version, runAs, session))
      | .script invocation => .inr (.inr invocation),
    by rintro (⟨_, _, _, _⟩ | ⟨_, _, _, _⟩ | _) <;> rfl, by rintro (_ | _ | _) <;> rfl⟩) (by decide)

def softwareUpgrade : Codec SoftwareUpgrade :=
  .tagged "kind" (((Cases.one "inPlace" .none (by decide)).or
      ((Cases.one "uninstallThenInstall" .none (by decide)).or (.one "deny" .none (by decide)) (by decide)) (by decide)).iso
    ⟨fun
      | .inl () => .inPlace
      | .inr (.inl ()) => .uninstallThenInstall
      | .inr (.inr ()) => .deny,
    fun
      | .inPlace => .inl ()
      | .uninstallThenInstall => .inr (.inl ())
      | .deny => .inr (.inr ()),
    by rintro (_ | _ | _) <;> rfl, by rintro (_ | _ | _) <;> rfl⟩) (by decide)

def softwareMaterial : Codec SoftwareMaterial :=
  .record (((Members.one "path" .text).and (.one "artifact" exactArtifactRef)).iso
    ⟨fun x => ⟨x.1, x.2⟩, fun x => (x.path, x.artifact), fun _ => rfl, fun _ => rfl⟩) (by decide)

def softwarePhaseName : SoftwarePhase → String
  | .before => "before"
  | .mutation => "mutation"
  | .removal => "removal"
  | .removalAfter => "removalAfter"
  | .upgrade => "upgrade"
  | .prepare => "prepare"
  | .attach => "attach"
  | .stage => "stage"
  | .cleanup => "cleanup"
  | .after => "after"

def invocations : Codec (SoftwarePhase → Option SoftwareInvocation) :=
  .family softwarePhaseName SoftwarePhase.all (by intro x; cases x <;> decide) (by decide) softwareInvocation

def softwareProgramStep : Codec SoftwareProgramStep :=
  .record (((Members.one "format" softwareFormat).and ((Members.one "package" packageValue).and ((Members.one "version" packageValue).and
      ((Members.one "architecture" packageValue).and ((Members.one "payload" exactArtifactRef).and
        ((Members.one "materials" softwareMaterial.list).and ((Members.one "signatures" softwareSignature.list).and
          ((Members.one "upgrade" softwareUpgrade).and ((Members.one "invocations" invocations).and
            ((Members.one "detection" softwareDetector).and ((Members.one "allowDowngrade" .bool).and
              (.one "allowReboot" .bool)))))))))))).iso
    ⟨fun (format, package, version, architecture, payload, materials, signatures, upgrade, invocations, detection, downgrade, reboot) =>
      ⟨format, package, version, architecture, payload, materials, signatures, upgrade, invocations, detection, downgrade, reboot⟩,
    fun x => (x.format, x.package, x.version, x.architecture, x.payload, x.materials, x.signatures, x.upgrade, x.invocations, x.detection,
      x.allowDowngrade, x.allowReboot),
    fun _ => rfl, fun _ => rfl⟩) (by decide)

def softwareOperationName : SoftwareOperation → String
  | .install => "install"
  | .detect => "detect"
  | .uninstall => "uninstall"

def softwareOperation : Codec SoftwareOperation :=
  .enumeration softwareOperationName [.install, .detect, .uninstall] (by intro x; cases x <;> decide) (by decide)

def softwareProgram : Codec SoftwareProgram :=
  .record (((Members.one "definitionDigest" digest).and ((Members.one "intent" softwareOperation).and
      (.one "steps" softwareProgramStep.list))).iso
    ⟨fun x => ⟨x.1, x.2.1, x.2.2⟩, fun x => (x.definitionDigest, x.intent, x.steps), fun _ => rfl, fun _ => rfl⟩) (by decide)

def executionSpec : Codec ExecutionSpec :=
  .tagged "kind" (((Cases.one "softwareProgram" (.one "program" softwareProgram) (by decide)).or
      (.one "process" .none (by decide)) (by decide)).iso
    ⟨fun
      | .inl program => .softwareProgram program
      | .inr () => .process,
    fun
      | .softwareProgram program => .inl program
      | .process => .inr (),
    by rintro (_ | _) <;> rfl, by rintro (_ | _) <;> rfl⟩) (by decide)

def executionInput [HostParser] : Codec ExecutionInput :=
  .record (((Members.one "schemaVersion" version).and ((Members.one "execution" executionSpec).and
      ((Members.one "request" executionRequest).and ((Members.one "launch" launchSpec).and ((Members.one "runAs" runAs).and
        ((Members.one "sessionRequirement" sessionRequirement).and ((Members.one "constraints" isolationPolicy).and
          ((Members.one "budget" executionBudget).and ((Members.one "validity" validityWindow).and
            (.one "policy" versionedRef)))))))))).iso
    ⟨fun ((), execution, request, launch, runAs, session, constraints, budget, validity, policy) =>
      ⟨execution, request, launch, runAs, session, constraints, budget, validity, policy⟩,
    fun x => ((), x.execution, x.request, x.launch, x.runAs, x.sessionRequirement, x.constraints, x.budget, x.validity, x.policy),
    fun _ => rfl, fun _ => rfl⟩)
    (by
      change ["schemaVersion", "execution", "request", "launch", "runAs", "sessionRequirement", "constraints", "budget", "validity",
        "policy"].Nodup
      decide)

end RssMdmAgent.PlanCodec
