import Birger.Spec.Shared
import Birger.Proofs.Gauge
import Mathlib.Data.List.Perm.Basic

/-! Every interleaving of the table's calls is linearizable in lock order. An `Add` or a
`Remove` takes effect at its commit and a reading call at its answer. In between, the lock
keeps the table still. With no writer inside, the table is the committed writes run one
after another from `MakeRoutes`, and every reply is the sequential call's answer on the
table after the writes it saw. No write is lost or applied twice: the committed writes are
those of the goroutines that returned from `Add` or `Remove`, each once. And the lock never
deadlocks: from any state, every call can run until it returns. -/

namespace Birger.Shared

section Lists

variable {α β : Type}

theorem set_perm : ∀ {l : List α} {i : Nat} {y : α}, l[i]? = some y →
    ∀ x, (y :: l.set i x).Perm (x :: l)
  | a :: l, 0, y, h, x => by
    obtain rfl : a = y := by simpa using h
    exact List.Perm.swap x a l
  | a :: l, i + 1, y, h, x =>
    calc (y :: a :: l.set i x).Perm (a :: y :: l.set i x) := List.Perm.swap a y _
      List.Perm _ (a :: x :: l) := (set_perm (by simpa using h) x).cons a
      List.Perm _ (x :: a :: l) := List.Perm.swap x a l

theorem filterMap_set_perm {f : α → Option β} {l : List α} {i : Nat} {y : α}
    (h : l[i]? = some y) (x : α) (hx : f x = f y) :
    ((l.set i x).filterMap f).Perm (l.filterMap f) := by
  rcases hy : f y with _ | b <;> simpa [hx, hy] using (set_perm h x).filterMap f

theorem filterMap_set_perm_some {f : α → Option β} {l : List α} {i : Nat} {y : α} {b : β}
    (h : l[i]? = some y) (x : α) (hy : f y = none) (hx : f x = some b) :
    ((l.set i x).filterMap f).Perm (b :: l.filterMap f) := by
  simpa [hx, hy] using (set_perm h x).filterMap f

theorem map_set_perm {g : α → β} {l : List α} {i : Nat} {y : α} (h : l[i]? = some y)
    (x : α) (hx : g x = g y) : ((l.set i x).map g).Perm (l.map g) := by
  simpa [hx] using (set_perm h x).map g

theorem foldr_weight_set (f : α → Nat) : ∀ {l : List α} {i : Nat} {y : α}, l[i]? = some y →
    ∀ x, (l.set i x).foldr (fun a n => f a + n) 0 + f y = l.foldr (fun a n => f a + n) 0 + f x
  | a :: l, 0, y, h, x => by
    obtain rfl : a = y := by simpa using h
    simp only [List.set_cons_zero, List.foldr_cons]
    omega
  | a :: l, i + 1, y, h, x => by
    have := foldr_weight_set f (by simpa using h) x
    simp only [List.set_cons_succ, List.foldr_cons]
    omega

theorem mem_set_cases {l : List α} {i : Nat} {x g : α} (h : g ∈ l.set i x) :
    g = x ∨ ∃ j, j ≠ i ∧ l[j]? = some g := by
  obtain ⟨j, hj⟩ := List.mem_iff_getElem?.1 h
  by_cases hji : j = i
  · subst hji
    have hlt : j < l.length := by simpa using (List.getElem?_eq_some_iff.1 hj).1
    rw [List.getElem?_set_self hlt] at hj
    exact .inl (Option.some.inj hj).symm
  · rw [List.getElem?_set_ne (Ne.symm hji)] at hj
    exact .inr ⟨j, hji, hj⟩

end Lists

variable {R M S : Type}

theorem Goroutine.isWriting_eq_false {g : Goroutine R M S} (h : g.holdsLock = false) :
    g.isWriting = false := by
  cases g <;> first | rfl | cases h

theorem Goroutine.holdsLock_of_isWriting {g : Goroutine R M S} (h : g.isWriting = true) :
    g.holdsLock = true := by
  cases g <;> first | rfl | cases h

theorem Goroutine.wroteOp_eq {g : Goroutine R M S} (h : g.returned = true) :
    g.wroteOp = g.job.writeOp := by
  cases g <;> first | rfl | cases h

theorem Goroutine.isWriting_of_returned {g : Goroutine R M S} (h : g.returned = true) :
    g.isWriting = false := by
  cases g <;> first | rfl | cases h

theorem no_writer_set {l : List (Goroutine R M S)} (h : ∀ g ∈ l, g.isWriting = false) {i : Nat}
    {x : Goroutine R M S} (hx : x.isWriting = false) : ∀ g ∈ l.set i x, g.isWriting = false :=
  fun g hg => (List.mem_or_eq_of_mem_set hg).elim (h g) (· ▸ hx)

theorem exclusive_of_no_writer {l : List (Goroutine R M S)} (h : ∀ g ∈ l, g.isWriting = false) :
    ∀ (i j : Nat) (g g' : Goroutine R M S), l[i]? = some g → l[j]? = some g' →
      g.isWriting = true → g'.holdsLock = true → i = j :=
  fun _ _ g _ hg _ hw _ => by rw [h g (List.getElem?_mem hg)] at hw; cases hw

section Linearizable

variable [DecidableEq R]

/-- Everything one event can do. A goroutine not yet in its `Add` or `Remove` takes `Lock`
when nobody holds it; the writer inside stores anything; the writer commits from what it
read; a reading call takes `RLock` when no writer is inside; a reading call answers. -/
theorem step_cases (μ : Methods R M S) {s s' : State R M S} {e : Event R}
    (h : step μ s e = some s') :
    (∃ i op, s.goroutines[i]? = some (.ready (.write op)) ∧
      (∀ g ∈ s.goroutines, g.holdsLock = false) ∧
      s' = { s with goroutines := s.goroutines.set i (.writing op s.table) }) ∨
    (∃ t, (∃ g ∈ s.goroutines, g.isWriting = true) ∧ s' = { s with table := t }) ∨
    (∃ i op before, s.goroutines[i]? = some (.writing op before) ∧
      s' = ⟨op.apply μ.route before, s.goroutines.set i (.wrote op), s.committed ++ [op]⟩) ∨
    (∃ i q, s.goroutines[i]? = some (.ready (.read q)) ∧
      (∀ g ∈ s.goroutines, g.isWriting = false) ∧
      s' = { s with goroutines := s.goroutines.set i (.reading q) }) ∨
    (∃ i q draw, s.goroutines[i]? = some (.reading q) ∧
      s' = { s with goroutines :=
        s.goroutines.set i (.replied q draw (q.eval μ draw s.table) s.committed.length) }) := by
  cases e with
  | lock i =>
    simp only [step] at h
    split at h
    · split_ifs at h with hfree
      exact .inl ⟨i, _, ‹_›, by simpa using hfree, (Option.some.inj h).symm⟩
    · cases h
  | store t =>
    simp only [step] at h
    split_ifs at h with hw
    exact .inr (.inl ⟨t, List.any_eq_true.1 hw, (Option.some.inj h).symm⟩)
  | commit i =>
    simp only [step] at h
    split at h
    · exact .inr (.inr (.inl ⟨i, _, _, ‹_›, (Option.some.inj h).symm⟩))
    · cases h
  | rlock i =>
    simp only [step] at h
    split at h
    · split_ifs at h with hnw
      exact .inr (.inr (.inr (.inl ⟨i, _, ‹_›, by simpa using hnw, (Option.some.inj h).symm⟩)))
    · cases h
  | answer i draw =>
    simp only [step] at h
    split at h
    · exact .inr (.inr (.inr (.inr ⟨i, _, draw, ‹_›, (Option.some.inj h).symm⟩)))
    · cases h

/-- What an observer of a state sees. With no writer inside, the table is the committed
writes run one after another from `MakeRoutes`. Every reply is its call's answer on the
table after the writes it saw. The committed writes are those of the goroutines that
returned from `Add` or `Remove`, each once. -/
structure Linearized (μ : Methods R M S) (s : State R M S) : Prop where
  table : (∀ g ∈ s.goroutines, g.isWriting = false) →
    s.table = Birger.run μ.route makeRoutes s.committed
  replies : ∀ q draw reply seen, Goroutine.replied q draw reply seen ∈ s.goroutines →
    seen ≤ s.committed.length ∧
      reply = q.eval μ draw (Birger.run μ.route makeRoutes (s.committed.take seen))
  ledger : s.committed.Perm (s.goroutines.filterMap Goroutine.wroteOp)

/-- What every reachable state satisfies besides: a goroutine holding `Lock` holds it alone,
a writer inside read the committed table, and every goroutine keeps its call. -/
structure Inv (μ : Methods R M S) (jobs : List (Job R M)) (s : State R M S)
    extends Linearized μ s : Prop where
  exclusive : ∀ (i j : Nat) (g g' : Goroutine R M S), s.goroutines[i]? = some g →
    s.goroutines[j]? = some g' → g.isWriting = true → g'.holdsLock = true → i = j
  read : ∀ op before, Goroutine.writing op before ∈ s.goroutines →
    before = Birger.run μ.route makeRoutes s.committed
  calls : (s.goroutines.map Goroutine.job).Perm jobs

section

variable {μ : Methods R M S} {jobs : List (Job R M)} {s : State R M S}

theorem inv_init (μ : Methods R M S) (jobs : List (Job R M)) : Inv μ jobs (init jobs) where
  table _ := rfl
  replies _ _ _ _ h := by simp [init] at h
  ledger := by simp [init, Function.comp_def, Goroutine.wroteOp]
  exclusive _ _ g _ hg _ hw _ := by
    obtain ⟨j, -, rfl⟩ := List.mem_map.1 (List.getElem?_mem hg)
    cases hw
  read _ _ h := by simp [init] at h
  calls := by simp [init, Function.comp_def, Goroutine.job]

theorem Inv.of_linearized (hl : Linearized μ s) (hnw : ∀ g ∈ s.goroutines, g.isWriting = false)
    (hc : (s.goroutines.map Goroutine.job).Perm jobs) : Inv μ jobs s :=
  { hl with
    exclusive := exclusive_of_no_writer hnw
    read := fun _ _ h => by cases hnw _ h
    calls := hc }

theorem Inv.no_writer_of_reading (hi : Inv μ jobs s) {i : Nat} {q : Query M}
    (h : s.goroutines[i]? = some (.reading q)) : ∀ g ∈ s.goroutines, g.isWriting = false := by
  intro g hg
  obtain ⟨j, hj⟩ := List.mem_iff_getElem?.1 hg
  cases hw : g.isWriting
  · rfl
  · obtain rfl := hi.exclusive j i g _ hj h hw rfl
    rw [hj] at h
    cases h
    cases hw

theorem Inv.lock (hi : Inv μ jobs s) {i : Nat} {op : Op R}
    (h : s.goroutines[i]? = some (.ready (.write op)))
    (hfree : ∀ g ∈ s.goroutines, g.holdsLock = false) :
    Inv μ jobs { s with goroutines := s.goroutines.set i (.writing op s.table) } where
  table hnw := by
    have hlt : i < s.goroutines.length := (List.getElem?_eq_some_iff.1 h).1
    cases hnw _ (List.getElem?_mem (List.getElem?_set_self hlt))
  replies q d r n h' := by
    rcases List.mem_or_eq_of_mem_set h' with h' | h'
    · exact hi.replies q d r n h'
    · cases h'
  ledger := hi.ledger.trans (filterMap_set_perm h _ (by rfl)).symm
  exclusive j k g g' hj hk hw hh := by
    -- goroutine `i` is now the only one holding the lock
    have only : ∀ {j g}, (s.goroutines.set i (.writing op s.table))[j]? = some g →
        g.holdsLock = true → j = i := by
      intro j g hj hh
      by_contra hji
      rw [List.getElem?_set_ne (Ne.symm hji)] at hj
      rw [hfree g (List.getElem?_mem hj)] at hh
      cases hh
    exact (only hj (Goroutine.holdsLock_of_isWriting hw)).trans (only hk hh).symm
  read op' before h' := by
    rcases List.mem_or_eq_of_mem_set h' with h' | h'
    · cases hfree _ h'
    · cases h'
      exact hi.table fun g hg => Goroutine.isWriting_eq_false (hfree g hg)
  calls := (map_set_perm h _ (by rfl)).trans hi.calls

theorem Inv.store (hi : Inv μ jobs s) (hw : ∃ g ∈ s.goroutines, g.isWriting = true)
    (t : ConnectedRoutes R) : Inv μ jobs { s with table := t } where
  table hnw := by
    obtain ⟨g, hg, hgw⟩ := hw
    rw [hnw g hg] at hgw
    cases hgw
  replies := hi.replies
  ledger := hi.ledger
  exclusive := hi.exclusive
  read := hi.read
  calls := hi.calls

theorem Inv.commit (hi : Inv μ jobs s) {i : Nat} {op : Op R} {before : ConnectedRoutes R}
    (h : s.goroutines[i]? = some (.writing op before)) :
    Inv μ jobs ⟨op.apply μ.route before, s.goroutines.set i (.wrote op), s.committed ++ [op]⟩ := by
  -- the writer held the lock alone, so no writer is left inside
  have hnw : ∀ g ∈ s.goroutines.set i (.wrote op), g.isWriting = false := by
    intro g hg
    rcases mem_set_cases hg with rfl | ⟨j, hji, hj⟩
    · rfl
    · cases hw : g.isWriting
      · rfl
      · exact absurd (hi.exclusive j i g _ hj h hw rfl) hji
  refine Inv.of_linearized ⟨fun _ => ?_, fun q d r n h' => ?_, ?_⟩ hnw
    ((map_set_perm h _ (by rfl)).trans hi.calls)
  · rw [hi.read op before (List.getElem?_mem h)]
    simp [Birger.run, List.foldl_append]
  · rcases List.mem_or_eq_of_mem_set h' with h' | h'
    · obtain ⟨hn, hr⟩ := hi.replies q d r n h'
      exact ⟨by simp; omega, by rwa [List.take_append_of_le_length hn]⟩
    · cases h'
  · exact (List.perm_append_singleton op _).trans
      ((hi.ledger.cons op).trans (filterMap_set_perm_some h _ (by rfl) (by rfl)).symm)

theorem Inv.rlock (hi : Inv μ jobs s) {i : Nat} {q : Query M}
    (h : s.goroutines[i]? = some (.ready (.read q)))
    (hnw : ∀ g ∈ s.goroutines, g.isWriting = false) :
    Inv μ jobs { s with goroutines := s.goroutines.set i (.reading q) } := by
  refine Inv.of_linearized ⟨fun _ => hi.table hnw, fun q d r n h' => ?_,
    hi.ledger.trans (filterMap_set_perm h _ (by rfl)).symm⟩ (no_writer_set hnw rfl)
    ((map_set_perm h _ (by rfl)).trans hi.calls)
  rcases List.mem_or_eq_of_mem_set h' with h' | h'
  · exact hi.replies q d r n h'
  · cases h'

theorem Inv.answer (hi : Inv μ jobs s) {i : Nat} {q : Query M}
    (h : s.goroutines[i]? = some (.reading q)) (draw : Nat → Nat) :
    Inv μ jobs { s with
      goroutines :=
        s.goroutines.set i (.replied q draw (q.eval μ draw s.table) s.committed.length) } := by
  have hnw := hi.no_writer_of_reading h
  refine Inv.of_linearized ⟨fun _ => hi.table hnw, fun q' d r n h' => ?_,
    hi.ledger.trans (filterMap_set_perm h _ (by rfl)).symm⟩ (no_writer_set hnw rfl)
    ((map_set_perm h _ (by rfl)).trans hi.calls)
  rcases List.mem_or_eq_of_mem_set h' with h' | h'
  · exact hi.replies q' d r n h'
  · -- the new reply read the table after every committed write
    cases h'
    exact ⟨le_rfl, by rw [List.take_length, ← hi.table hnw]⟩

theorem Inv.step (hi : Inv μ jobs s) {e : Event R} {s' : State R M S}
    (h : step μ s e = some s') : Inv μ jobs s' := by
  rcases step_cases μ h with ⟨i, op, hg, hfree, rfl⟩ | ⟨t, hw, rfl⟩ | ⟨i, op, b, hg, rfl⟩ |
    ⟨i, q, hg, hnw, rfl⟩ | ⟨i, q, d, hg, rfl⟩
  · exact hi.lock hg hfree
  · exact hi.store hw t
  · exact hi.commit hg
  · exact hi.rlock hg hnw
  · exact hi.answer hg d

theorem Inv.run : ∀ {s : State R M S} (es : List (Event R)) {t : State R M S},
    Inv μ jobs s → run μ s es = some t → Inv μ jobs t
  | _, [], _, hi, h => by cases h; exact hi
  | _, e :: es, _, hi, h => by
    simp only [Birger.Shared.run, Option.bind_eq_some] at h
    obtain ⟨s₁, h₁, h₂⟩ := h
    exact Inv.run es (hi.step h₁) h₂

end

/-- Every interleaving of `Add`, `Remove`, `Send`, `Cancel` and `GetStatistics` calls on a
table made by `MakeRoutes` is linearizable in lock order: outside the writers' critical
sections the table is the sequential run of the committed writes, each reply is the
sequential call's answer after the writes it saw, and the committed writes are exactly those
of the returned `Add` and `Remove` calls. -/
theorem run_linearizable (μ : Methods R M S) (jobs : List (Job R M)) (es : List (Event R))
    {s : State R M S} (h : run μ (init jobs) es = some s) : Linearized μ s :=
  ((inv_init μ jobs).run es h).toLinearized

/-- One goroutine adds route `1` under the name `agent`; another sends to that name. -/
def demoMethods : Methods Nat Unit Nat :=
  ⟨⟨fun _ => "agent", fun _ => "session", fun _ _ _ => true, fun _ _ => "sent"⟩,
    fun _ _ => true, id⟩

def demoSearch : Search := ⟨"agent", "service", "endpoint", "session"⟩

def demoJobs : List (Job Nat Unit) := [.write (.add 1), .read (.send demoSearch ())]

def demoEvents : List (Event Nat) := [.lock 0, .commit 0, .rlock 1, .answer 1 fun _ => 0]

def demoFinal : State Nat Unit Nat :=
  ⟨Birger.run demoMethods.route makeRoutes [.add 1],
    [.wrote (.add 1), .replied (.send demoSearch ()) (fun _ => 0)
      ((Query.send demoSearch ()).eval demoMethods (fun _ => 0)
        (Birger.run demoMethods.route makeRoutes [.add 1])) 1],
    [.add 1]⟩

theorem run_linearizable_demo : Linearized demoMethods demoFinal :=
  run_linearizable demoMethods demoJobs demoEvents rfl

/-! ## No lost or duplicated update -/

/-- Once every call has returned, each `Add` and `Remove` of the run has taken effect exactly
once, and the table is those writes, in the order they committed, run one after another
from `MakeRoutes`. -/
theorem returned_writes_once (μ : Methods R M S) (jobs : List (Job R M)) (es : List (Event R))
    {s : State R M S} (h : run μ (init jobs) es = some s)
    (hret : ∀ g ∈ s.goroutines, g.returned = true) :
    s.committed.Perm (jobs.filterMap Job.writeOp) ∧
      s.table = Birger.run μ.route makeRoutes s.committed := by
  have hi := (inv_init μ jobs).run es h
  refine ⟨hi.ledger.trans ?_, hi.table fun g hg => Goroutine.isWriting_of_returned (hret g hg)⟩
  calc (s.goroutines.filterMap Goroutine.wroteOp)
      = (s.goroutines.map Goroutine.job).filterMap Job.writeOp := by
        rw [List.filterMap_map]
        exact List.filterMap_congr fun g hg => Goroutine.wroteOp_eq (hret g hg)
    List.Perm _ (jobs.filterMap Job.writeOp) := hi.calls.filterMap _

theorem returned_writes_once_demo :
    demoFinal.committed.Perm (demoJobs.filterMap Job.writeOp) ∧
      demoFinal.table = Birger.run demoMethods.route makeRoutes demoFinal.committed :=
  returned_writes_once demoMethods demoJobs demoEvents rfl (by decide)

/-- In every interleaving, whenever no `Add` or `Remove` is inside the lock, each name's
gauge counts the routes the table holds under it. -/
theorem run_gauge_counts (μ : Methods R M S) (jobs : List (Job R M)) (es : List (Event R))
    {s : State R M S} (h : run μ (init jobs) es = some s)
    (hnw : ∀ g ∈ s.goroutines, g.isWriting = false) (name : String) :
    s.table.gauge name = (s.table.list name).length := by
  rw [((inv_init μ jobs).run es h).table hnw]
  exact GaugeCounts.run μ.route (fun _ => rfl) s.committed name

theorem run_gauge_counts_demo :
    demoFinal.table.gauge "agent" = (demoFinal.table.list "agent").length :=
  run_gauge_counts demoMethods demoJobs demoEvents rfl (by decide) "agent"

end Linearizable

/-! ## The lock never deadlocks -/

/-- How far a goroutine is from returning: two events before it takes the lock, one inside. -/
def Goroutine.weight : Goroutine R M S → Nat
  | .ready _ => 2
  | .writing _ _ => 1
  | .reading _ => 1
  | _ => 0

/-- How far the calls are from returning. Every event but a store lowers it. -/
def workLeft (s : State R M S) : Nat := s.goroutines.foldr (fun g n => g.weight + n) 0

theorem workLeft_lt {s t : State R M S} {i : Nat} {y x : Goroutine R M S}
    (h : s.goroutines[i]? = some y) (ht : t.goroutines = s.goroutines.set i x)
    (hxy : x.weight < y.weight) : workLeft t < workLeft s := by
  have := foldr_weight_set Goroutine.weight h x
  simp only [workLeft, ht]
  omega

variable [DecidableEq R]

/-- From a state where some call has not returned, one event brings the calls closer to
returning: a goroutine inside the lock leaves it, or, with the lock free, one takes it. -/
theorem exists_step (μ : Methods R M S) (s : State R M S)
    (h : ∃ g ∈ s.goroutines, g.returned = false) :
    ∃ e t, step μ s e = some t ∧ workLeft t < workLeft s := by
  by_cases hfree : ∀ g ∈ s.goroutines, g.holdsLock = false
  · -- nobody holds the lock: a call not started takes it
    obtain ⟨g, hg, hret⟩ := h
    obtain ⟨i, hi⟩ := List.mem_iff_getElem?.1 hg
    cases g with
    | ready job =>
      cases job with
      | write op =>
        have hall : s.goroutines.all (!·.holdsLock) = true :=
          List.all_eq_true.2 fun g hg => by simp [hfree g hg]
        exact ⟨.lock i, _, by simp only [step, hi, hall, if_true]; rfl,
          workLeft_lt hi (by rfl) (by simp [Goroutine.weight])⟩
      | read q =>
        have hall : s.goroutines.all (!·.isWriting) = true :=
          List.all_eq_true.2 fun g hg => by simp [Goroutine.isWriting_eq_false (hfree g hg)]
        exact ⟨.rlock i, _, by simp only [step, hi, hall, if_true]; rfl,
          workLeft_lt hi (by rfl) (by simp [Goroutine.weight])⟩
    | writing _ _ | reading _ => cases hfree _ hg
    | wrote _ | replied _ _ _ _ => cases hret
  · -- a goroutine inside the lock leaves it
    push_neg at hfree
    obtain ⟨g, hg, hh⟩ := hfree
    obtain ⟨i, hi⟩ := List.mem_iff_getElem?.1 hg
    cases g with
    | writing op before =>
      exact ⟨.commit i, _, by simp only [step, hi]; rfl,
        workLeft_lt hi (by rfl) (by simp [Goroutine.weight])⟩
    | reading q =>
      exact ⟨.answer i fun _ => 0, _, by simp only [step, hi]; rfl,
        workLeft_lt hi (by rfl) (by simp [Goroutine.weight])⟩
    | ready _ | wrote _ | replied _ _ _ _ => exact absurd rfl hh

theorem completes_within (μ : Methods R M S) : ∀ (n : Nat) (s : State R M S), workLeft s ≤ n →
    ∃ es t, run μ s es = some t ∧ ∀ g ∈ t.goroutines, g.returned = true
  | n, s, hn => by
    by_cases hall : ∀ g ∈ s.goroutines, g.returned = true
    · exact ⟨[], s, rfl, hall⟩
    push_neg at hall
    obtain ⟨e, t, hstep, hlt⟩ := exists_step μ s (by simpa using hall)
    match n with
    | 0 => omega
    | n + 1 =>
      obtain ⟨es, u, hrun, hu⟩ := completes_within μ n t (by omega)
      exact ⟨e :: es, u, by simp [Birger.Shared.run, hstep, hrun], hu⟩

/-- The table's lock never deadlocks its callers: from any state, the goroutines can run
until every call has returned. This rests on the route methods called under the lock
returning, as the model's header assumes. -/
theorem run_completes (μ : Methods R M S) (s : State R M S) :
    ∃ es t, run μ s es = some t ∧ ∀ g ∈ t.goroutines, g.returned = true :=
  completes_within μ _ s le_rfl

end Birger.Shared
