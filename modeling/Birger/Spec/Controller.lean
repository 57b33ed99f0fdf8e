import Birger.Spec.Credentials

/-! The controller's identity binding: the agent name a tunnel stream is registered under
is read from the leaf of the peer's first verified certificate chain, whose OU decodes to a
`CertificateName` (`ca.GetCertificateNameFromCert`, outside the sources, is a parameter).
And the service-auth keyset the controller loads at start-up from its secrets directory. -/

namespace Birger

inductive AuthInfo where
  | tlsInfo (verifiedChains : List (List X509Certificate))
  | other
  deriving DecidableEq, Repr

/-- The fields of `ca.CertificateName` the controller reads; `Name` is left out. -/
structure CertificateName where
  purpose : String
  agent : String
  deriving DecidableEq, Repr

/-- Modelled from the spec: `ca.CertificatePurposeAgent`, the purpose of agent certificates. -/
def certificatePurposeAgent : String := "agent"

inductive IdentityError where
  | unauthenticated (message : String)
  | plain (message : String)
  deriving DecidableEq, Repr

def getAgentNameFromCertificate
    (getCertificateNameFromCert : X509Certificate → Except String CertificateName)
    (cert : X509Certificate) : Except IdentityError String :=
  match getCertificateNameFromCert cert with
  | .error err => .error (.plain err)
  | .ok names =>
    if names.purpose ≠ certificatePurposeAgent then .error (.plain "not an agent certificate")
    else .ok names.agent

/-- `getAgentNameFromContext`; `peer` is what `peer.FromContext` finds, if anything. -/
def getAgentNameFromContext
    (getCertificateNameFromCert : X509Certificate → Except String CertificateName)
    (peer : Option AuthInfo) : Except IdentityError String :=
  match peer with
  | none => .error (.unauthenticated "no peer found")
  | some .other => .error (.unauthenticated "unexpected peer transport credentials")
  | some (.tlsInfo verifiedChains) =>
    match verifiedChains with
    | (leaf :: _) :: _ => getAgentNameFromCertificate getCertificateNameFromCert leaf
    | _ => .error (.unauthenticated "could not verify peer certificate")

/-! ## The service-auth keyset -/

structure ServiceAuthConfig where
  currentKeyName : String
  headerMutationKeyName : String
  deriving DecidableEq, Repr

structure Jwk where
  keyID : String
  algorithm : String
  material : List UInt8
  deriving DecidableEq, Repr

/-- What `filepath.WalkDir` hands its callback for one path of `SecretsPath`: an error, or
the entry with its path, base name and whether it is a regular file. -/
inductive WalkItem where
  | error (err : String)
  | entry (path name : String) (regular : Bool)
  deriving DecidableEq, Repr

/-- What `loadKeyset` asks of the environment: the paths the walk visits, `os.ReadFile`, and
whether `jwk.New` accepts the content. Setting `kid` and `alg` on a symmetric key does not
fail. -/
structure KeyEnv where
  walk : List WalkItem
  readFile : String → Except String (List UInt8)
  newKey : List UInt8 → Except String Unit

def walkKeys (env : KeyEnv) : List WalkItem → Except String (List Jwk)
  | [] => .ok []
  | .error err :: _ => .error err
  | .entry path name regular :: rest =>
    if !regular then walkKeys env rest
    else
      match env.readFile path with
      | .error err => .error err
      | .ok content =>
        match env.newKey content with
        | .error err => .error err
        | .ok () => (walkKeys env rest).map (⟨name, "HS256", content⟩ :: ·)

/-- `loadKeyset`: the keys added to the empty `jwtKeyset` and `jwtCurrentKey`, or the
`log.Fatal` that ends the controller. -/
def loadKeyset (env : KeyEnv) (config : ServiceAuthConfig) : Outcome (List Jwk × String) :=
  if config.currentKeyName = "" then .fatal "No primary serviceAuth key name provided" []
  else
    match walkKeys env env.walk with
    | .error err => .fatal "cannot load key serviceAuth keys: %v" [err]
    | .ok jwtKeyset =>
      let jwtCurrentKey := config.currentKeyName
      if jwtCurrentKey.length = 0 then .fatal "serviceAuth.currentKeyName is not set" []
      else if !jwtKeyset.any (·.keyID == jwtCurrentKey) then
        .fatal "serviceAuth.currentKeyName is not in the loaded list of keys" []
      else if config.headerMutationKeyName.length = 0 then
        .fatal "serviceAuth.headerMutationKeyName is not set" []
      else .done (jwtKeyset, jwtCurrentKey)

end Birger
