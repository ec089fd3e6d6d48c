import RssMdmAgent.BigEndianNumbers
import RssMdmAgent.KeyedTable

set_option autoImplicit false

/-! # Trust documents and what their certificates and revocation lists say -/

namespace RssMdmAgent.TrustDocuments
open KeyedTable

abbrev Bytes := List UInt8

inductive Error where
  | capacity | protocol | untrusted | conflict | clock | identity | storage | unavailable
  | credentialRevoked | credentialRetired | certificateExpired
  deriving DecidableEq

inductive Purpose where
  | agent | other
  deriving DecidableEq

inductive Mode where
  | verifyOnly | other
  deriving DecidableEq

/-- One issuer of a document, with its root and the revocation lists of both. -/
structure Issuer where
  provisioner : String
  kid : String
  certificate : String
  root : String
  digest : String
  mode : Mode
  crl : String
  rootCrl : String

structure Trust where
  revision : Nat
  purpose : Purpose
  serviceId : String
  tenant : String
  issuers : List Issuer

structure Config where
  serviceId : String
  tenant : String

/-! ## Parsed certificates and lists -/

structure AlgorithmIdentifier where
  algorithm : String
  parameters : Bytes
  deriving DecidableEq

/-- A distribution point: the names of a full name, each with its address if it is one. -/
structure IssuingDistributionPoint where
  names : Option (List (Option String))
  onlyContainsUserCerts : Bool
  onlyContainsCaCerts : Bool
  onlyContainsAttributeCerts : Bool
  onlySomeReasons : Bool
  indirectCrl : Bool

inductive ParsedExtension where
  | parseError
  | basicConstraints | keyUsage | extendedKeyUsage | subjectKeyIdentifier | authorityKeyIdentifier
  | issuingDistributionPoint (idp : IssuingDistributionPoint)
  | other

structure Extension where
  oid : String
  critical : Bool
  parsed : ParsedExtension

structure BasicConstraints where
  critical : Bool
  ca : Bool
  pathLenConstraint : Option Nat

structure KeyUsage where
  critical : Bool
  keyCertSign : Bool
  crlSign : Bool

structure X509 where
  signatureAlgorithm : AlgorithmIdentifier
  signature : AlgorithmIdentifier
  subject : Bytes
  issuer : Bytes
  serial : Bytes
  notBefore : Int
  notAfter : Int
  publicKey : Bytes
  -- whether no extension is there twice
  extensionsMap : Bool
  extensions : List Extension
  -- absent or unreadable constraints and usages are refused alike
  basicConstraints : Option BasicConstraints
  keyUsage : Option KeyUsage

structure RevokedCertificate where
  serial : Bytes
  extensions : List Extension

structure RevocationList where
  signatureAlgorithm : AlgorithmIdentifier
  signature : AlgorithmIdentifier
  issuer : Bytes
  extensions : List Extension
  crlNumber : Option Nat
  lastUpdate : Int
  nextUpdate : Option Int
  revoked : List RevokedCertificate

structure Verifier where
  root : Bytes
  crls : List Bytes

/-- Parsing, signatures, path validation, text encodings and digests, and the checks of the document's own format. -/
structure Primitives where
  encode64 : Bytes → String
  decode64 : String → Option Bytes
  hash : Bytes → String
  -- the parsed value, and what is left after it
  readCertificate : Bytes → Option (Bytes × X509)
  readCrl : Bytes → Option (Bytes × RevocationList)
  signed : X509 → Bytes → Bool
  crlSigned : RevocationList → Bytes → Bool
  builds : Verifier → Bool
  verifyClientCert : Verifier → Bytes → List Bytes → Int → Bool
  validate : Trust → Except Error Unit
  installationDigest : Trust → String

/-! ## Verification -/

structure Watermark where
  number : Bytes
  thisUpdate : Int
  digest : String
  deriving DecidableEq

structure Crl where
  watermark : Watermark
  expires : Int
  revoked : List Bytes
  der : Bytes

structure Generation where
  issuer : Bytes
  root : Bytes
  crl : Crl
  rootCrl : Crl
  verifier : Verifier

structure VerifiedTrust where
  document : Trust
  generations : List Generation
  watermarks : Table String Watermark
  expires : Int

section Verification
variable (P : Primitives)

def bytes (text : String) (max : Nat) : Except Error Bytes :=
  if (max * 4 + 2) / 3 + 4 < text.utf8ByteSize then .error .capacity
  else match P.decode64 text with
    | none => .error .protocol
    | some bytes => if bytes = [] ∨ max < bytes.length ∨ P.encode64 bytes ≠ text then .error .protocol else .ok bytes

def strongAlgorithms : List String :=
  ["1.2.840.113549.1.1.11", "1.2.840.113549.1.1.12", "1.2.840.113549.1.1.13", "1.2.840.113549.1.1.10", "1.2.840.10045.4.3.2",
    "1.2.840.10045.4.3.3", "1.3.101.112"]

def strongAlgorithm (algorithm : AlgorithmIdentifier) : Except Error Unit :=
  if algorithm.algorithm ∈ strongAlgorithms then .ok () else .error .untrusted

def certificate (der : Bytes) : Except Error X509 :=
  match P.readCertificate der with
  | none => .error .untrusted
  | some (remaining, certificate) =>
    if remaining ≠ [] ∨ certificate.signatureAlgorithm ≠ certificate.signature then .error .untrusted
    else do
      strongAlgorithm certificate.signatureAlgorithm
      if certificate.extensionsMap then .ok certificate else .error .untrusted

def ParsedExtension.isError : ParsedExtension → Bool
  | .parseError => true
  | _ => false

def ParsedExtension.mayBeCritical : ParsedExtension → Bool
  | .basicConstraints | .keyUsage | .extendedKeyUsage | .subjectKeyIdentifier | .authorityKeyIdentifier => true
  | _ => false

def ca (certificate : X509) : Except Error Unit :=
  match certificate.basicConstraints, certificate.keyUsage with
  | some bc, some ku =>
    if ¬bc.critical ∨ ¬bc.ca ∨ ¬ku.critical ∨ ¬ku.keyCertSign ∨ ¬ku.crlSign then .error .untrusted
    else if certificate.extensions.any fun e => e.parsed.isError || (e.critical && !e.parsed.mayBeCritical) then .error .untrusted
    else .ok ()
  | _, _ => .error .untrusted

def validAt (certificate : X509) (now : Int) : Except Error Unit :=
  if now < certificate.notBefore ∨ certificate.notAfter ≤ now then .error .untrusted else .ok ()

def serial (value : Bytes) : Bytes := value.drop ((value.findIdx? (· ≠ 0)).getD (value.length - 1))

def IssuingDistributionPoint.isFull (idp : IssuingDistributionPoint) : Bool :=
  !idp.onlyContainsUserCerts && !idp.onlyContainsCaCerts && !idp.onlyContainsAttributeCerts && !idp.onlySomeReasons &&
    !idp.indirectCrl && idp.names.any fun names => !names.isEmpty && names.all (·.any (· ≠ ""))

def Extension.inCrl (e : Extension) : Bool :=
  e.oid ≠ "2.5.29.27" && match e.parsed with
    | .parseError => false
    | .issuingDistributionPoint idp => e.critical && idp.isFull
    | _ => !e.critical

def RevokedCertificate.acceptable (entry : RevokedCertificate) : Bool :=
  entry.extensions.all fun e => !e.critical && !e.parsed.isError

def crlBytes (number : Nat) : Bytes := if number = 0 then [0] else BigEndianNumbers.toBytes number

/-- The dates and the number of a list that is current. -/
def currentCrl (der : Bytes) (value : RevocationList) (now : Int) : Except Error Crl :=
  match value.crlNumber, value.nextUpdate with
  | some number, some expires =>
    if 20 < (crlBytes number).length then .error .untrusted
    else if now < value.lastUpdate ∨ value.lastUpdate < 0 ∨ expires ≤ value.lastUpdate ∨ expires ≤ now then .error .untrusted
    else if ¬value.revoked.all (·.acceptable) ∨ ¬(value.revoked.map fun entry => serial entry.serial).Nodup then .error .untrusted
    else .ok ⟨⟨crlBytes number, value.lastUpdate, P.hash der⟩, expires, value.revoked.map fun entry => serial entry.serial, der⟩
  | _, _ => .error .untrusted

def crl (der : Bytes) (signer : X509) (now : Int) : Except Error Crl :=
  match P.readCrl der with
  | none => .error .untrusted
  | some (remaining, value) =>
    if remaining ≠ [] ∨ value.signatureAlgorithm ≠ value.signature ∨ value.issuer ≠ signer.subject then .error .untrusted
    else do
      strongAlgorithm value.signatureAlgorithm
      if ¬P.crlSigned value signer.publicKey then .error .untrusted
      else if ¬(value.extensions.map (·.oid)).Nodup ∨ ¬value.extensions.all (·.inCrl) then .error .untrusted
      else currentCrl P der value now

def usable (mode : Mode) (issuer root : X509) (now : Int) : Except Error Unit :=
  if mode ≠ .verifyOnly then do
    validAt issuer now
    validAt root now
  else .ok ()

def chained (issuerDer rootDer : Bytes) (issuer root : X509) : Except Error Unit :=
  if root.subject ≠ root.issuer ∨ issuer.issuer ≠ root.subject ∨
      (issuerDer ≠ rootDer ∧ (root.basicConstraints.bind (·.pathLenConstraint)) = some 0) then .error .untrusted
  else if ¬P.signed root root.publicKey ∨ ¬P.signed issuer root.publicKey then .error .untrusted
  else .ok ()

structure Building where
  generations : List Generation
  seen : List String
  watermarks : Table String Watermark
  expires : Int

def note (id : String) (watermark : Watermark) (watermarks : Table String Watermark) : Except Error (Table String Watermark) :=
  if (watermarks.lookup id).any (· ≠ watermark) then .error .conflict else .ok (watermarks.insert id watermark)

def sooner (notAfter now expires : Int) : Int := if now < notAfter then min expires notAfter else expires

/-- The generation of an issuer, and the certificates of the issuer and its root. -/
def generation (seen : List String) (g : Issuer) (now : Int) : Except Error (Generation × X509 × X509) := do
  let issuerDer ← bytes P g.certificate 32768
  let rootDer ← bytes P g.root 32768
  if P.hash issuerDer ≠ g.digest ∨ g.digest ∈ seen then .error .untrusted
  else do
    let issuer ← certificate P issuerDer
    let root ← certificate P rootDer
    ca issuer
    ca root
    usable g.mode issuer root now
    chained P issuerDer rootDer issuer root
    let issuerCrlDer ← bytes P g.crl (16 * 1024 * 1024)
    let issuerCrl ← crl P issuerCrlDer issuer now
    let rootCrlDer ← bytes P g.rootCrl (16 * 1024 * 1024)
    let rootCrl ← crl P rootCrlDer root now
    let verifier : Verifier := ⟨rootDer, if issuerDer ≠ rootDer then [issuerCrl.der, rootCrl.der] else [issuerCrl.der]⟩
    .ok (⟨issuerDer, rootDer, issuerCrl, rootCrl, verifier⟩, issuer, root)

def addIssuer (now : Int) (b : Building) (g : Issuer) : Except Error Building :=
  if g.provisioner ≠ "rss-agent" ∨ g.kid = "" ∨ 128 < g.kid.utf8ByteSize then .error .untrusted
  else do
    let (made, issuer, root) ← generation P b.seen g now
    let watermarks ← note (P.hash made.issuer) made.crl.watermark b.watermarks
    let watermarks ← note (P.hash made.root) made.rootCrl.watermark watermarks
    if P.builds made.verifier then
      let expires := sooner root.notAfter now (sooner issuer.notAfter now b.expires)
      .ok ⟨b.generations ++ [made], b.seen ++ [g.digest], watermarks, min (min expires made.crl.expires) made.rootCrl.expires⟩
    else .error .untrusted

def i64Max : Int := 2 ^ 63 - 1

def VerifiedTrust.new (document : Trust) (cfg : Config) (now : Int) : Except Error VerifiedTrust :=
  if now < 0 then .error .clock
  else do
    P.validate document
    if document.purpose ≠ .agent ∨ document.serviceId ≠ cfg.serviceId ∨ document.tenant ≠ cfg.tenant then .error .untrusted
    else do
      let b ← document.issuers.foldlM (addIssuer P now) ⟨[], [], ∅, i64Max⟩
      .ok ⟨document, b.generations, b.watermarks, b.expires⟩

def Watermark.recedes (new old : Watermark) : Bool :=
  let number := BigEndianNumbers.compareNumbers new.number old.number
  number.isLT || decide (new.thisUpdate < old.thisUpdate) || (number.isEq && decide (new ≠ old))

def VerifiedTrust.monotonic (v : VerifiedTrust) (previous : Trust) (watermarks : Table String Watermark) : Except Error Unit :=
  if v.document.revision < previous.revision ∨ (v.document.revision = previous.revision ∧
      P.installationDigest v.document ≠ P.installationDigest previous) then .error .conflict
  else if v.watermarks.entries.any fun entry => (watermarks.lookup entry.1).any entry.2.recedes then .error .conflict
  else .ok ()

def Generation.supplies (g : Generation) (supplied : List Bytes) : Bool :=
  supplied.length ≤ 2 && supplied[0]?.all (· = g.issuer) && supplied[1]?.all (· = g.root)

def Generation.revokes (g : Generation) (leaf issuer : X509) : Bool :=
  serial leaf.serial ∈ g.crl.revoked || (g.issuer ≠ g.root && serial issuer.serial ∈ g.rootCrl.revoked)

def Generation.intermediates (g : Generation) : List Bytes := if g.issuer = g.root then [] else [g.issuer]

/-- The generations are asked in turn, until one accepts or refuses. -/
def walk (leaf : X509) (first : Bytes) (supplied : List Bytes) (now : Int) : Bool → List Generation → Except Error Unit
  | revoked, [] => .error (if revoked then .credentialRevoked else .untrusted)
  | revoked, g :: rest => do
    let issuer ← certificate P g.issuer
    if leaf.issuer ≠ issuer.subject then walk leaf first supplied now revoked rest
    else if ¬P.signed leaf issuer.publicKey then walk leaf first supplied now revoked rest
    else do
      let root ← certificate P g.root
      if g.revokes leaf issuer then walk leaf first supplied now true rest
      else do
        validAt issuer now
        validAt root now
        if g.crl.expires ≤ now ∨ g.rootCrl.expires ≤ now then .error .untrusted
        else if ¬g.supplies supplied then .error .untrusted
        else if P.verifyClientCert g.verifier first g.intermediates now then .ok ()
        else walk leaf first supplied now revoked rest

def VerifiedTrust.verifyLeaf (v : VerifiedTrust) (chain : List Bytes) (now : Int) : Except Error Unit :=
  if now < 0 then .error .clock
  else match chain with
    | [] => .error .untrusted
    | first :: supplied => do
      let leaf ← certificate P first
      walk P leaf first supplied now false v.generations

end Verification

end RssMdmAgent.TrustDocuments
