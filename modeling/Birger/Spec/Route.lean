import Mathlib.Data.List.Basic

/-! The `tunnelroute` route table (`ConnectedRoutes`): a map from agent name to the
slice of live routes under that name, the per-name `connectedRoutesGauge`, and the
operations `Add`, `Remove`, `findService`, `Send` and `Cancel`. Route objects are a type
`R` whose `=` is Go's interface identity; the methods of the `Route` interface, which
live outside this package, are the fields of a `Route R M`. -/

namespace Birger

/-- The fields of a `Search` that the table reads. -/
structure Search where
  name : String
  endpointType : String
  endpointName : String
  session : String
  deriving DecidableEq, Repr

/-- The methods of the `Route` interface that `ConnectedRoutes` calls, for route objects
of type `R` and messages of type `M`. Each is a fixed function of the route: an agent's
name, session and endpoints are set when its `Hello` arrives. -/
structure Route (R M : Type) where
  getName : R → String
  getSession : R → String
  hasEndpoint : R → String → String → Bool
  send : R → M → String

inductive Call (R M : Type) where
  | send (r : R) (message : M)
  | cancel (r : R) (id : String)
  deriving DecidableEq, Repr

inductive RouteError where
  | noRoutesConnected (ep : Search)
  | noSuchRoute (ep : Search)
  | sessionNotSet
  | noRoutesForCancel (ep : Search)
  | noSessionRoute (ep : Search)
  deriving DecidableEq, Repr

def RouteError.format : RouteError → String
  | .noRoutesConnected _ => "no routes connected for %s"
  | .noSuchRoute _ => "request for %s, no such route exists or all are unconfigured"
  | .sessionNotSet => "session is not set (coding error)"
  | .noRoutesForCancel _ => "no routes connected for: %s (likely coding error)"
  | .noSessionRoute _ => "no routes with specific session exist for %s (likely coding error)"

/-- The table `s.m` together with `connectedRoutesGauge`, the package-level gauge that
`Add` and `Remove` move; with one table in the process the two change together. -/
structure ConnectedRoutes (R : Type) where
  m : String → Option (List R)
  gauge : String → Int

variable {R M : Type} [DecidableEq R] (rt : Route R M)

def makeRoutes : ConnectedRoutes R := ⟨fun _ => none, fun _ => 0⟩

def ConnectedRoutes.list (s : ConnectedRoutes R) (name : String) : List R :=
  (s.m name).getD []

/-- `GetStatistics`, with `statistics` for each route's `GetStatistics()` and the map's
keys in the order `keys` in which the runtime ranges over them: every route's statistics,
slice by slice. -/
def getStatistics {S : Type} (statistics : R → S) (s : ConnectedRoutes R) (keys : List String) :
    List S :=
  keys.foldl (fun ret name => (s.list name).foldl (fun ret route => ret ++ [statistics route]) ret) []

/-- `sliceIndex`'s loop at index `i` with `k` iterations left. -/
def sliceIndexFrom (predicate : Nat → Bool) (i : Nat) : Nat → Int
  | 0 => -1
  | k + 1 => if predicate i then i else sliceIndexFrom predicate (i + 1) k

def sliceIndex (limit : Nat) (predicate : Nat → Bool) : Int :=
  sliceIndexFrom predicate 0 limit

/-- `routeList[i] = routeList[len-1]; routeList[len-1] = nil; routeList = routeList[:len-1]`.
The `nil` store falls beyond the new length. `Remove` calls it only on a slice in which
it found index `i`, so the slice is never empty there. -/
def swapRemove (routeList : List R) (i : Nat) : List R :=
  match routeList.getLast? with
  | none => routeList
  | some last => (routeList.set i last).dropLast

def add (s : ConnectedRoutes R) (state : R) : ConnectedRoutes R :=
  let name := rt.getName state
  { m := Function.update s.m name (some ((s.m name).getD [] ++ [state]))
    gauge := Function.update s.gauge name (s.gauge name + 1) }

/-- `Remove` on the table: a missing name or a missing entry only logs. `Remove` first calls
`state.Close()` on every route it is given, in the table or not; that call is an effect on
the route object, which this model of the table leaves out. -/
def remove (s : ConnectedRoutes R) (state : R) : ConnectedRoutes R :=
  let name := rt.getName state
  match s.m name with
  | none => s
  | some routeList =>
    let i := sliceIndex routeList.length fun i => routeList[i]? == some state
    if i = -1 then s
    else
      { m := Function.update s.m name (some (swapRemove routeList i.toNat))
        gauge := Function.update s.gauge name (s.gauge name - 1) }

def possibleRoutes (routeList : List R) (ep : Search) : List Nat :=
  routeList.enum.foldl
    (fun acc (i, a) => if rt.hasEndpoint a ep.endpointType ep.endpointName then acc ++ [i] else acc)
    []

/-- `rnd.Intn(n)` on a generator whose next draw for bound `n` is `draw n`; Go panics
(`none`) when `n` is not positive. -/
def intn (draw : Nat → Nat) (n : Nat) : Option Nat :=
  if n = 0 then none else some (draw n)

/-- `findService`; the outer `none` is a Go runtime panic (`rnd.Intn(0)` or an index out
of range). -/
def findService (s : ConnectedRoutes R) (ep : Search) (draw : Nat → Nat) :
    Option (Except RouteError R) :=
  match s.m ep.name with
  | none => some (.error (.noRoutesConnected ep))
  | some routeList =>
    if routeList.length = 0 then some (.error (.noRoutesConnected ep))
    else
      let possible := possibleRoutes rt routeList ep
      if possible.length = 0 then some (.error (.noSuchRoute ep))
      else do
        let k ← intn draw possible.length
        let selected ← possible[k]?
        let route ← routeList[selected]?
        pure (.ok route)

def send (s : ConnectedRoutes R) (ep : Search) (message : M) (draw : Nat → Nat) :
    Option (Except RouteError String × List (Call R M)) :=
  (findService rt s ep draw).map fun
    | .error err => (.error err, [])
    | .ok route => (.ok (rt.send route message), [.send route message])

/-- `Cancel`, with `Search.MatchesRoute` (a method of `Search`, outside this package)
given as `matchesRoute`: the first route of the named slice it matches is cancelled. -/
def cancel (s : ConnectedRoutes R) (matchesRoute : Search → R → Bool) (ep : Search)
    (id : String) : Except RouteError Unit × List (Call R M) :=
  if ep.session.length = 0 then (.error .sessionNotSet, [])
  else
    match s.m ep.name with
    | none => (.error (.noRoutesForCancel ep), [])
    | some routeList =>
      if routeList.length = 0 then (.error (.noRoutesForCancel ep), [])
      else
        match routeList.find? (matchesRoute ep) with
        | some a => (.ok (), [.cancel a id])
        | none => (.error (.noSessionRoute ep), [])

inductive Op (R : Type) where
  | add (r : R)
  | remove (r : R)
  deriving DecidableEq, Repr

def Op.apply (s : ConnectedRoutes R) : Op R → ConnectedRoutes R
  | .add r => Birger.add rt s r
  | .remove r => Birger.remove rt s r

def run (s : ConnectedRoutes R) (ops : List (Op R)) : ConnectedRoutes R :=
  ops.foldl (Op.apply rt) s

def added : List (Op R) → List R
  | [] => []
  | .add r :: ops => r :: added ops
  | .remove _ :: ops => added ops

end Birger
