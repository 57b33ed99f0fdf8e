import Birger.Spec.Agent

/-! The Kubernetes endpoint as its goroutines share it. Each request copies `ke.f` field by
field into a fresh `kubeContext` under `RLock` (`makeServerContextFields`), while the worker
(`updateServerContextTicker`) compares the context it loaded with `ke.f` under `Lock` and, when
they differ, overwrites `ke.f` with `*saf`, again one field at a time and in no fixed order.
`sync.RWMutex` is taken as its contract: `RLock` waits while the writer holds the lock, and
`Lock` waits until no reader holds it. A panic of the comparison ends the run. `held` is
ghost state: the contexts `ke.f` has held in full, the initial one first. -/

namespace Birger.Endpoint

inductive Field where
  | username
  | serverURL
  | serverCA
  | clientCert
  | token
  | insecure
  deriving DecidableEq, Repr

def Field.all : List Field := [.username, .serverURL, .serverCA, .clientCert, .token, .insecure]

/-- The Go assignment `dst.φ = src.φ`. -/
def copyField (dst src : KubeContext) : Field → KubeContext
  | .username => { dst with username := src.username }
  | .serverURL => { dst with serverURL := src.serverURL }
  | .serverCA => { dst with serverCA := src.serverCA }
  | .clientCert => { dst with clientCert := src.clientCert }
  | .token => { dst with token := src.token }
  | .insecure => { dst with insecure := src.insecure }

/-- The zero `kubeContext` a composite literal starts from. -/
def blank : KubeContext := ⟨"", "", none, none, "", false⟩

/-- A goroutine calling `makeServerContextFields`: not in it, copying under `RLock` with the
fields `done` copied into `snap`, or returned with `snap`. -/
inductive Reader where
  | idle
  | copying (done : List Field) (snap : KubeContext)
  | returned (snap : KubeContext)
  deriving DecidableEq, Repr

/-- The worker: loading outside the lock, holding `Lock` with the loaded `saf`, or holding it
while `ke.f = *saf` has written the fields `done`. -/
inductive Writer where
  | loading
  | locked (saf : KubeContext)
  | assigning (done : List Field) (saf : KubeContext)
  deriving DecidableEq, Repr

def Reader.holdsLock : Reader → Bool
  | .copying _ _ => true
  | _ => false

def Writer.holdsLock : Writer → Bool
  | .loading => false
  | _ => true

def Writer.isAssigning : Writer → Bool
  | .assigning _ _ => true
  | _ => false

def Writer.loaded : Writer → Option KubeContext
  | .loading => none
  | .locked saf => some saf
  | .assigning _ saf => some saf

structure State where
  f : KubeContext
  readers : List Reader
  writer : Writer
  held : List KubeContext
  deriving DecidableEq, Repr

/-- The endpoint `MakeKubernetesEndpoint` returns with the context `c`, and `n` goroutines
that will run requests. -/
def init (c : KubeContext) (n : Nat) : State := ⟨c, List.replicate n .idle, .loading, [c]⟩

/-- What one goroutine does next: reader `i` takes `RLock`, copies a field, or returns and
releases it; the worker takes `Lock` with a loaded context, compares, writes a field, or
releases `Lock` after writing all of them. -/
inductive Event where
  | rlock (i : Nat)
  | read (i : Nat) (φ : Field)
  | runlock (i : Nat)
  | lock (saf : KubeContext)
  | compare
  | assign (φ : Field)
  | unlock
  deriving DecidableEq, Repr

def Event.load : Event → List KubeContext
  | .lock saf => [saf]
  | _ => []

def step (isSame : KubeContext → KubeContext → Option Bool) (s : State) : Event → Option State
  | .rlock i =>
    match s.readers[i]? with
    | some r =>
      if r.holdsLock || s.writer.holdsLock then none
      else some { s with readers := s.readers.set i (.copying [] blank) }
    | none => none
  | .read i φ =>
    match s.readers[i]? with
    | some (.copying done snap) =>
      some { s with readers := s.readers.set i (.copying (φ :: done) (copyField snap s.f φ)) }
    | _ => none
  | .runlock i =>
    match s.readers[i]? with
    | some (.copying done snap) =>
      if Field.all.all (· ∈ done) then some { s with readers := s.readers.set i (.returned snap) }
      else none
    | _ => none
  | .lock saf =>
    match s.writer with
    | .loading =>
      if s.readers.all (!·.holdsLock) then some { s with writer := .locked saf } else none
    | _ => none
  | .compare =>
    match s.writer with
    | .locked saf =>
      match isSame s.f saf with
      | some true => some { s with writer := .loading }
      | some false => some { s with writer := .assigning [] saf }
      | none => none
    | _ => none
  | .assign φ =>
    match s.writer with
    | .assigning done saf =>
      some { s with f := copyField s.f saf φ, writer := .assigning (φ :: done) saf }
    | _ => none
  | .unlock =>
    match s.writer with
    | .assigning done saf =>
      if Field.all.all (· ∈ done) then some { s with writer := .loading, held := s.held ++ [saf] }
      else none
    | _ => none

def run (isSame : KubeContext → KubeContext → Option Bool) : State → List Event → Option State
  | s, [] => some s
  | s, e :: es => (step isSame s e).bind fun s' => run isSame s' es

end Birger.Endpoint
