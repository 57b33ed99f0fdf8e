import Birger.Spec.Agent

/-! Where the refresh worker's contexts come from: `loadKubernetesSecurity` reads the
mounted kubeconfig when it opens, and the in-pod service account otherwise. Files,
environment, `kubeconfig`, base64, PEM and X.509 parsing are the environment `Loader`.
A load ends in a context, a `log.Fatalf` (the process exits) or a panic: both
`loadServiceAccount` and `serverContextFromKubeconfig` read `pemBlock.Bytes` from
`pem.Decode` without checking for a nil block. -/

namespace Birger

structure KubeUser where
  name : String
  clientCertificateData : String
  clientKeyData : String
  deriving DecidableEq, Repr

structure KubeCluster where
  name : String
  server : String
  insecureSkipTLSVerify : Bool
  certificateAuthorityData : String
  deriving DecidableEq, Repr

/-- A parsed kubeconfig: `CurrentContext`, `GetContextNames()` and `FindContext`. -/
structure KubeConfig where
  currentContext : String
  contextNames : List String
  findContext : String → Except String (KubeUser × KubeCluster)

/-- What a load asks of the process and the libraries: `os.Open` with
`kubeconfig.ReadKubeConfig` (`none` when the file does not open), `os.ReadFile`,
`os.Getenv`, `base64.StdEncoding.DecodeString`, `tls.X509KeyPair`, `pem.Decode` (`none`
for a nil block) and `x509.ParseCertificate`. -/
structure Loader where
  openKubeConfig : String → Option (Except String KubeConfig)
  readFile : String → Except String (List UInt8)
  getenv : String → String
  decodeBase64 : String → Except String (List UInt8)
  x509KeyPair : List UInt8 → List UInt8 → Except String TlsCertificate
  pemDecode : List UInt8 → Option (List UInt8)
  parseCertificate : List UInt8 → Except String X509Certificate

/-- How a load ends: a context, `log.Fatalf` with its format and arguments, or a panic. -/
inductive Outcome (α : Type) where
  | done (a : α)
  | fatal (format : String) (args : List String)
  | panic
  deriving DecidableEq, Repr

/-- Go's `string(b)` for a byte slice: one character per byte. -/
def bytesToString (b : List UInt8) : String := String.mk (b.map fun x => Char.ofNat x.toNat)

variable (ld : Loader)

def clusterCA (cluster : KubeCluster) : Outcome (Option X509Certificate) :=
  if cluster.certificateAuthorityData.length > 0 then
    match ld.decodeBase64 cluster.certificateAuthorityData with
    | .error err => .fatal "Error decoding server CA cert from base64 (%s): %v" [cluster.name, err]
    | .ok serverCA =>
      match ld.pemDecode serverCA with
      | none => .panic
      | some bytes =>
        match ld.parseCertificate bytes with
        | .error err => .fatal "Error parsing server certificate: %v" [err]
        | .ok serverCert => .done (some serverCert)
  else .done none

/-- The body of the loop of `serverContextFromKubeconfig` for the current context. -/
def contextFor (user : KubeUser) (cluster : KubeCluster) : Outcome KubeContext :=
  match ld.decodeBase64 user.clientCertificateData with
  | .error err => .fatal "Error decoding user cert from base64 (%s): %v" [user.name, err]
  | .ok certData =>
    match ld.decodeBase64 user.clientKeyData with
    | .error err => .fatal "Error decoding user key from base64 (%s): %v" [user.name, err]
    | .ok keyData =>
      match ld.x509KeyPair certData keyData with
      | .error err => .fatal "Error loading client cert/key: %v" [err]
      | .ok clientKeypair =>
        match clusterCA ld cluster with
        | .done serverCA =>
          .done ⟨user.name, cluster.server, serverCA, some clientKeypair, "",
            cluster.insecureSkipTLSVerify⟩
        | .fatal format args => .fatal format args
        | .panic => .panic

def serverContextFromKubeconfig (kconfig : KubeConfig) : Outcome KubeContext :=
  if kconfig.contextNames.contains kconfig.currentContext then
    match kconfig.findContext kconfig.currentContext with
    | .error err => .fatal "Unable to retrieve cluster and user info for context %s: %v"
        [kconfig.currentContext, err]
    | .ok (user, cluster) => contextFor ld user cluster
  else .fatal "Default context not found in kubeconfig" []

def loadServiceAccount : Outcome (Except String KubeContext) :=
  match ld.readFile "/var/run/secrets/kubernetes.io/serviceaccount/token" with
  | .error err => .done (.error err)
  | .ok token =>
    match ld.readFile "/var/run/secrets/kubernetes.io/serviceaccount/ca.crt" with
    | .error err => .done (.error err)
    | .ok serverCA =>
      match ld.pemDecode serverCA with
      | none => .panic
      | some bytes =>
        match ld.parseCertificate bytes with
        | .error err => .done (.error err)
        | .ok serverCert =>
          let servicePort := ld.getenv "KUBERNETES_SERVICE_PORT"
          if servicePort.length = 0 then .done (.error
            "unable to locate API server from KUBERNETES_SERVICE_PORT environment variable")
          else
            let serviceHost := ld.getenv "KUBERNETES_SERVICE_HOST"
            if serviceHost.length = 0 then .done (.error
              "unable to locate API server from KUBERNETES_SERVICE_HOST environment variable")
            else .done (.ok ⟨"ServiceAccount", "https://" ++ serviceHost ++ ":" ++ servicePort,
              some serverCert, none, bytesToString token, true⟩)

def loadKubernetesSecurity (kubeConfig : String) : Outcome KubeContext :=
  match ld.openKubeConfig kubeConfig with
  | some (.error err) => .fatal "Unable to read kubeconfig: %v" [err]
  | some (.ok kconfig) => serverContextFromKubeconfig ld kconfig
  | none =>
    match loadServiceAccount ld with
    | .done (.error err) => .fatal "No kubeconfig and no Kubernetes account found: %v" [err]
    | .done (.ok sa) => .done sa
    | .fatal format args => .fatal format args
    | .panic => .panic

def kubeConfigPath (configured : String) : String :=
  if configured = "" then "/app/config/kubeconfig.yaml" else configured

/-- `updateServerContextTicker` (serviceconfig) over the loaders of successive rounds:
each round loads a context and replaces the stored one when `isSameAs` says it differs.
It stops at the first round whose load or comparison does not return. -/
def refreshRounds (kubeConfig : String) : KubeContext → List Loader → Outcome KubeContext
  | f, [] => .done f
  | f, ld :: rest =>
    match loadKubernetesSecurity ld kubeConfig with
    | .done saf =>
      match refreshWith ServiceConfig.isSameAs f saf with
      | some f' => refreshRounds kubeConfig f' rest
      | none => .panic
    | .fatal format args => .fatal format args
    | .panic => .panic

/-- `MakeKubernetesEndpoint` with the worker it starts, its configuration taken as parsed:
the context loaded at start, then the stored context after the worker's rounds. -/
def makeKubernetesEndpoint (configured : String) (ld : Loader) (rounds : List Loader) :
    Outcome KubeContext :=
  match loadKubernetesSecurity ld (kubeConfigPath configured) with
  | .done f => refreshRounds (kubeConfigPath configured) f rounds
  | .fatal format args => .fatal format args
  | .panic => .panic

end Birger
