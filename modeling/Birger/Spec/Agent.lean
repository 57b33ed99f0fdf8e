import Mathlib.Data.List.Basic

/-! The agent's Kubernetes executor: the tunnel frames it emits (`tunnel.proto`), the
`kubeContext` it refreshes every 600 s and the two versions of the comparison that decides
a refresh (`app/agent` and `serviceconfig`), and `executeHTTPRequest`, which turns the
outbound HTTP call and the successive reads of its body into frames on `dataflow`. The
HTTP stack is an environment `HttpStack`; a Go panic is `none`. -/

namespace Birger

structure HttpHeader where
  name : String
  values : List String
  deriving DecidableEq, Repr

/-- The fields of `OpenHTTPTunnelRequest` the executor reads; `name` and `type` are left
out. -/
structure OpenHTTPTunnelRequest where
  id : String
  method : String
  uri : String
  headers : List HttpHeader
  body : List UInt8
  deriving DecidableEq, Repr

structure HttpTunnelResponse where
  id : String
  status : Int
  headers : List HttpHeader
  contentLength : Int
  deriving DecidableEq, Repr

/-- `HttpTunnelChunkedResponse`; an empty body ends the response. -/
structure HttpTunnelChunkedResponse where
  id : String
  body : List UInt8
  deriving DecidableEq, Repr

inductive HttpTunnelControl where
  | openHTTPTunnelRequest (r : OpenHTTPTunnelRequest)
  | cancelRequest (id : String)
  | httpTunnelResponse (r : HttpTunnelResponse)
  | httpTunnelChunkedResponse (r : HttpTunnelChunkedResponse)
  deriving DecidableEq, Repr

def HttpTunnelControl.id : HttpTunnelControl → String
  | .openHTTPTunnelRequest r => r.id
  | .cancelRequest id => id
  | .httpTunnelResponse r => r.id
  | .httpTunnelChunkedResponse r => r.id

def HttpTunnelControl.payload : HttpTunnelControl → List UInt8
  | .httpTunnelChunkedResponse r => r.body
  | _ => []

def HttpTunnelControl.isTerminator : HttpTunnelControl → Bool
  | .httpTunnelChunkedResponse r => r.body.isEmpty
  | _ => false

inductive ReadError where
  | eof
  | canceled
  | other (msg : String)
  deriving DecidableEq, Repr

/-- One `get.Body.Read(buf)`: the bytes `buf[:n]` and the error. -/
structure ReadResult where
  data : List UInt8
  err : Option ReadError
  deriving DecidableEq, Repr

/-- The parts of the `*http.Response` that `client.Do` returns which the executor reads;
`body` lists the results of the successive reads of `get.Body`. -/
structure HttpResponse where
  statusCode : Int
  header : List HttpHeader
  contentLength : Int
  body : List ReadResult
  deriving DecidableEq, Repr

/-- An `x509.Certificate`; `Equal` compares the DER bytes `Raw`. -/
structure X509Certificate where
  raw : List UInt8
  deriving DecidableEq, Repr

def X509Certificate.equal (c other : X509Certificate) : Bool := c.raw == other.raw

/-- A `tls.Certificate`: its chain of DER certificates, leaf first. -/
structure TlsCertificate where
  certificate : List (List UInt8)
  deriving DecidableEq, Repr

/-- `kubeContext`; a nil pointer is `none`. -/
structure KubeContext where
  username : String
  serverURL : String
  serverCA : Option X509Certificate
  clientCert : Option TlsCertificate
  token : String
  insecure : Bool
  deriving DecidableEq, Repr

structure TlsConfig where
  minVersion : Nat
  insecureSkipVerify : Bool
  rootCAs : Option (List X509Certificate)
  certificates : List TlsCertificate
  deriving DecidableEq, Repr

structure Transport where
  maxIdleConns : Nat
  idleConnTimeoutSeconds : Nat
  disableCompression : Bool
  tlsClientConfig : TlsConfig
  deriving DecidableEq, Repr

structure HttpRequest where
  method : String
  url : String
  header : String → List String
  body : List UInt8

/-- What the executor asks of `net/http`: the canonical form of a header key, whether
`http.NewRequestWithContext` fails for a method and URL, and what `client.Do` returns. -/
structure HttpStack where
  canonicalHeaderKey : String → String
  newRequestError : String → String → Option String
  clientDo : Transport → HttpRequest → Except String HttpResponse

def versionTLS12 : Nat := 0x0303

def tlsConfigOf (c : KubeContext) : TlsConfig where
  minVersion := versionTLS12
  insecureSkipVerify := c.insecure
  rootCAs := c.serverCA.map fun ca => [ca]
  certificates := c.clientCert.toList

def transportOf (c : KubeContext) : Transport where
  maxIdleConns := 10
  idleConnTimeoutSeconds := 30
  disableCompression := true
  tlsClientConfig := tlsConfigOf c

def headerAdd (stack : HttpStack) (h : String → List String) (key value : String) :
    String → List String :=
  let k := stack.canonicalHeaderKey key
  Function.update h k (h k ++ [value])

def headerSet (stack : HttpStack) (h : String → List String) (key value : String) :
    String → List String :=
  Function.update h (stack.canonicalHeaderKey key) [value]

/-- Go's `len(s) > 0` and `s != ""` agree. -/
theorem length_ne_zero_of_ne_empty {s : String} (h : s ≠ "") : s.length ≠ 0 := by
  rcases s with ⟨_ | _⟩
  · exact absurd rfl h
  · simp [String.length]

def outboundRequest (stack : HttpStack) (c : KubeContext) (req : OpenHTTPTunnelRequest) :
    HttpRequest :=
  let header := req.headers.foldl
    (fun h hd => hd.values.foldl (fun h v => headerAdd stack h hd.name v) h) fun _ => []
  { method := req.method
    url := c.serverURL ++ req.uri
    header := if c.token.length > 0 then headerSet stack header "Authorization" ("Bearer " ++ c.token)
      else header
    body := req.body }

/-! The frame constructors `makeResponse`, `makeChunkedResponse` and `makeBadGatewayResponse`
are declared outside the sources; they are modelled from the spec. -/

def makeResponse (id : String) (get : HttpResponse) : HttpTunnelControl :=
  .httpTunnelResponse ⟨id, get.statusCode, get.header, get.contentLength⟩

def makeChunkedResponse (id : String) (data : List UInt8) : HttpTunnelControl :=
  .httpTunnelChunkedResponse ⟨id, data⟩

def makeBadGatewayResponse (id : String) : HttpTunnelControl :=
  .httpTunnelResponse ⟨id, 502, [], 0⟩

def readBufferSize : Nat := 10240

/-- The read loop of `executeHTTPRequest` over the successive results of `get.Body.Read`:
a chunk for the bytes of each read, then on `io.EOF` or another error the empty chunk, and
on `context.Canceled` nothing more. An exhausted list is a loop still waiting on `Read`. -/
def bodyLoop (id : String) : List ReadResult → List HttpTunnelControl
  | [] => []
  | rr :: rest =>
    (if rr.data.length > 0 then [makeChunkedResponse id rr.data] else []) ++
      match rr.err with
      | some .eof => [makeChunkedResponse id []]
      | some .canceled => []
      | some (.other _) => [makeChunkedResponse id []]
      | none => bodyLoop id rest

def executeHTTPRequest (stack : HttpStack) (c : KubeContext) (req : OpenHTTPTunnelRequest) :
    List HttpTunnelControl :=
  match stack.newRequestError req.method (c.serverURL ++ req.uri) with
  | some _ => [makeBadGatewayResponse req.id]
  | none =>
    match stack.clientDo (transportOf c) (outboundRequest stack c req) with
    | .error _ => [makeBadGatewayResponse req.id]
    | .ok get => makeResponse req.id get :: bodyLoop req.id get.body

namespace Agent

/-- `isSameAs` of `app/agent`; indexing the first certificate of an empty chain panics. -/
def isSameAs (scf scf2 : KubeContext) : Option Bool :=
  if scf.username ≠ scf2.username ∨ scf.serverURL ≠ scf2.serverURL ∨ scf.token ≠ scf2.token ∨
      scf.insecure ≠ scf2.insecure then some false
  else if (scf.serverCA.isNone ∧ scf2.serverCA.isSome) ∨
      (scf.serverCA.isSome ∧ scf2.serverCA.isNone) then some false
  else if (match scf.serverCA, scf2.serverCA with
      | some a, some b => !a.equal b
      | _, _ => false) then some false
  else if (scf.clientCert.isNone ∧ scf2.clientCert.isSome) ∨
      (scf.clientCert.isSome ∧ scf2.clientCert.isNone) then some false
  else match scf.clientCert, scf2.clientCert with
    | some a, some b => do
      let x ← a.certificate[0]?
      let y ← b.certificate[0]?
      if x ≠ y then some false else some true
    | _, _ => some true

end Agent

namespace ServiceConfig

/-- `tlsCertEqual`; indexing the first certificate of an empty chain panics. -/
def tlsCertEqual : Option TlsCertificate → Option TlsCertificate → Option Bool
  | none, none => some true
  | some _, none | none, some _ => some false
  | some s1, some s2 => do
    let x ← s1.certificate[0]?
    let y ← s2.certificate[0]?
    pure (x == y)

def x509CertEqual : Option X509Certificate → Option X509Certificate → Bool
  | none, none => true
  | some _, none | none, some _ => false
  | some s1, some s2 => s1.equal s2

def isSameAs (scf scf2 : KubeContext) : Option Bool :=
  if scf.username ≠ scf2.username ∨ scf.serverURL ≠ scf2.serverURL ∨ scf.token ≠ scf2.token ∨
      scf.insecure ≠ scf2.insecure then some false
  else if !x509CertEqual scf.serverCA scf2.serverCA then some false
  else tlsCertEqual scf.clientCert scf2.clientCert

end ServiceConfig

/-- One round of `updateServerContextTicker` under the comparison `isSame`: the stored
context `f` is replaced by the loaded `saf` when they differ. -/
def refreshWith (isSame : KubeContext → KubeContext → Option Bool) (f saf : KubeContext) :
    Option KubeContext :=
  (isSame f saf).map fun same => if !same then saf else f

/-- `updateServerContextTicker` over the contexts successive `loadKubernetesSecurity`
calls return; `none` is a panic that ends the worker. -/
def tickerWith (isSame : KubeContext → KubeContext → Option Bool) :
    KubeContext → List KubeContext → Option KubeContext
  | f, [] => some f
  | f, saf :: rest => (refreshWith isSame f saf).bind fun f' => tickerWith isSame f' rest

def Agent.updateServerContextTicker : KubeContext → List KubeContext → Option KubeContext :=
  tickerWith Agent.isSameAs

def ServiceConfig.updateServerContextTicker :
    KubeContext → List KubeContext → Option KubeContext :=
  tickerWith ServiceConfig.isSameAs

end Birger
