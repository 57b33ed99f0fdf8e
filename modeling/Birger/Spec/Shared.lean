import Birger.Spec.Route

/-! The route table as the controller's goroutines share it. `ConnectedRoutes` embeds a
`sync.RWMutex`: `Add` and `Remove` hold `Lock` for their whole body, while `Send`, `Cancel`
and `GetStatistics` hold `RLock`. A writer's body is several stores. `Remove` writes
`routeList[i]` and `routeList[len-1]` in place, into the backing array the map still points
at, before it stores the shortened slice and moves the gauge. So while a writer holds the
lock, the model lets the table hold any value at all (`store`). The writer's last store
and its gauge update are its `commit`, computed from the table as it read it after `Lock`.
A reading call reads the table at its `answer`, which also releases `RLock`. `Cancel`
checks the session before `RLock`; that check reads no table, so making it under the lock
changes no answer.
`sync.RWMutex` is taken as its contract: `RLock` waits while a writer holds the lock, and
`Lock` waits until nobody holds it. The writer preference of Go's mutex only removes
interleavings. `committed` and `seen` are ghost state: the writes in the order they took
effect, and how many of them each reading call saw.

Assumption: the methods the calls make under the lock (the route's `GetName`,
`HasEndpoint`, `Send`, `Cancel`, `Close` and `GetStatistics`, and `Search.MatchesRoute`)
return, so that a writer's body ends in its `commit` and a reading call's in its `answer`.
A method that blocked would keep the lock; the results on progress rest on this. The
effect of `Close`, which `Remove` makes first under the lock, on the route object is left
out, as in `Birger.remove`. -/

namespace Birger.Shared

variable {R M S : Type}

/-- A call that only reads the table: `Send`, `Cancel`, or `GetStatistics` with the order
`keys` in which it ranges over the map. -/
inductive Query (M : Type) where
  | send (ep : Search) (message : M)
  | cancel (ep : Search) (id : String)
  | getStatistics (keys : List String)
  deriving DecidableEq, Repr

inductive Reply (R M S : Type) where
  | sent (result : Option (Except RouteError String × List (Call R M)))
  | cancelled (result : Except RouteError Unit × List (Call R M))
  | statistics (result : List S)

/-- The methods a run calls outside the table: those of the `Route` interface,
`Search.MatchesRoute`, and each route's `GetStatistics()`. -/
structure Methods (R M S : Type) where
  route : Route R M
  matchesRoute : Search → R → Bool
  statistics : R → S

/-- A reading call on the table `t`, with `draw` standing for `rnd.Intn`. -/
def Query.eval [DecidableEq R] (μ : Methods R M S) (draw : Nat → Nat) (t : ConnectedRoutes R) :
    Query M → Reply R M S
  | .send ep message => .sent (Birger.send μ.route t ep message draw)
  | .cancel ep id => .cancelled (Birger.cancel t μ.matchesRoute ep id)
  | .getStatistics keys => .statistics (Birger.getStatistics μ.statistics t keys)

inductive Job (R M : Type) where
  | write (op : Op R)
  | read (q : Query M)
  deriving DecidableEq, Repr

def Job.writeOp : Job R M → Option (Op R)
  | .write op => some op
  | .read _ => none

/-- Where a goroutine is in its call. It may not hold the lock yet. It may hold `Lock`,
having read the table as `before`. It may hold `RLock`. Or it has returned: from a write,
or with `reply`, having read the table after `seen` writes, with `draw` as its generator. -/
inductive Goroutine (R M S : Type) where
  | ready (job : Job R M)
  | writing (op : Op R) (before : ConnectedRoutes R)
  | reading (q : Query M)
  | wrote (op : Op R)
  | replied (q : Query M) (draw : Nat → Nat) (reply : Reply R M S) (seen : Nat)

def Goroutine.isWriting : Goroutine R M S → Bool
  | .writing _ _ => true
  | _ => false

def Goroutine.holdsLock : Goroutine R M S → Bool
  | .writing _ _ => true
  | .reading _ => true
  | _ => false

def Goroutine.returned : Goroutine R M S → Bool
  | .wrote _ => true
  | .replied .. => true
  | _ => false

def Goroutine.job : Goroutine R M S → Job R M
  | .ready job => job
  | .writing op _ => .write op
  | .reading q => .read q
  | .wrote op => .write op
  | .replied q .. => .read q

/-- The write that has taken effect for a goroutine that returned from `Add` or `Remove`. -/
def Goroutine.wroteOp : Goroutine R M S → Option (Op R)
  | .wrote op => some op
  | _ => none

structure State (R M S : Type) where
  table : ConnectedRoutes R
  goroutines : List (Goroutine R M S)
  committed : List (Op R)

/-- `MakeRoutes`, and goroutines about to make the calls `jobs`. -/
def init (jobs : List (Job R M)) : State R M S := ⟨makeRoutes, jobs.map .ready, []⟩

/-- What one goroutine does next. Goroutine `i` takes `Lock` and reads the table. The
writer holding the lock leaves the table as `t`. Goroutine `i` stores its slice, moves the
gauge and unlocks. Goroutine `i` takes `RLock`. Or goroutine `i` reads the table with
`draw` as `rnd.Intn`, returns and unlocks. -/
inductive Event (R : Type) where
  | lock (i : Nat)
  | store (t : ConnectedRoutes R)
  | commit (i : Nat)
  | rlock (i : Nat)
  | answer (i : Nat) (draw : Nat → Nat)

variable [DecidableEq R]

def step (μ : Methods R M S) (s : State R M S) : Event R → Option (State R M S)
  | .lock i =>
    match s.goroutines[i]? with
    | some (.ready (.write op)) =>
      if s.goroutines.all (!·.holdsLock) then
        some { s with goroutines := s.goroutines.set i (.writing op s.table) }
      else none
    | _ => none
  | .store t => if s.goroutines.any Goroutine.isWriting then some { s with table := t } else none
  | .commit i =>
    match s.goroutines[i]? with
    | some (.writing op before) =>
      some ⟨op.apply μ.route before, s.goroutines.set i (.wrote op), s.committed ++ [op]⟩
    | _ => none
  | .rlock i =>
    match s.goroutines[i]? with
    | some (.ready (.read q)) =>
      if s.goroutines.all (!·.isWriting) then
        some { s with goroutines := s.goroutines.set i (.reading q) }
      else none
    | _ => none
  | .answer i draw =>
    match s.goroutines[i]? with
    | some (.reading q) =>
      some { s with
        goroutines :=
          s.goroutines.set i (.replied q draw (q.eval μ draw s.table) s.committed.length) }
    | _ => none

def run (μ : Methods R M S) : State R M S → List (Event R) → Option (State R M S)
  | s, [] => some s
  | s, e :: es => (step μ s e).bind fun s' => run μ s' es

end Birger.Shared
