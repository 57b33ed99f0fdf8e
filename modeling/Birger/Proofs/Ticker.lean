import Birger.Proofs.Snapshot

/-! The lock-level endpoint refines the sequential worker. Whatever the interleaving of the
requests with the worker, `ke.f` is where `tickerWith` leaves the stored context after the
contexts loaded so far: the worker takes effect when it compares (the linearisation point),
its field-by-field write only makes `ke.f` catch up before the lock is released, and the
requests never move it. With `ServiceConfig.isSameAs` or `Agent.isSameAs` as the comparison,
`tickerWith` is `updateServerContextTicker`. -/

namespace Birger.Endpoint

variable {isSame : KubeContext → KubeContext → Option Bool}

/-- Where the sequential worker stands in a state: the stored context; while the lock is held
for a load, that load's round, which the comparison decides; and during a write, the context
being written. -/
def pending (isSame : KubeContext → KubeContext → Option Bool) (s : State) : Option KubeContext :=
  match s.writer with
  | .loading => some s.f
  | .locked saf => refreshWith isSame s.f saf
  | .assigning _ saf => some saf

theorem tickerWith_append (x : KubeContext) :
    ∀ (f : KubeContext) (l : List KubeContext),
      tickerWith isSame f (l ++ [x]) = (tickerWith isSame f l).bind fun g => refreshWith isSame g x
  | f, [] => by simp [tickerWith]
  | f, a :: l => by
    rw [List.cons_append]
    simp only [tickerWith, Option.bind_assoc, tickerWith_append x _ l]

/-- Everything one event can do: a reader event only replaces one reader; the worker takes
the lock from outside it, decides its round by comparing, writes one field of the loaded
context, or releases the lock once every field is written. -/
theorem step_cases {s s' : State} {e : Event} (h : step isSame s e = some s') :
    (∃ i x, s' = { s with readers := s.readers.set i x } ∧ e.load = []) ∨
      (∃ saf, e = .lock saf ∧ s.writer = .loading ∧ s' = { s with writer := .locked saf }) ∨
      (∃ saf same, e = .compare ∧ s.writer = .locked saf ∧ isSame s.f saf = some same ∧
        s' = { s with writer := if same then .loading else .assigning [] saf }) ∨
      (∃ φ done saf, e = .assign φ ∧ s.writer = .assigning done saf ∧
        s' = { s with f := copyField s.f saf φ, writer := .assigning (φ :: done) saf }) ∨
      (∃ done saf, e = .unlock ∧ s.writer = .assigning done saf ∧
        Field.all.all (· ∈ done) = true ∧
        s' = { s with writer := .loading, held := s.held ++ [saf] }) := by
  cases e with
  | rlock i =>
    simp only [step] at h
    split at h
    · split_ifs at h
      exact .inl ⟨i, _, (Option.some.inj h).symm, rfl⟩
    · cases h
  | read i φ =>
    simp only [step] at h
    split at h
    · exact .inl ⟨i, _, (Option.some.inj h).symm, rfl⟩
    · cases h
  | runlock i =>
    simp only [step] at h
    split at h
    · split_ifs at h
      exact .inl ⟨i, _, (Option.some.inj h).symm, rfl⟩
    · cases h
  | lock saf =>
    simp only [step] at h
    split at h
    · split_ifs at h
      exact .inr (.inl ⟨saf, rfl, ‹_›, (Option.some.inj h).symm⟩)
    · cases h
  | compare =>
    simp only [step] at h
    split at h
    · rename_i saf hw
      split at h
      · exact .inr (.inr (.inl ⟨saf, true, rfl, hw, ‹_›, (Option.some.inj h).symm⟩))
      · exact .inr (.inr (.inl ⟨saf, false, rfl, hw, ‹_›, (Option.some.inj h).symm⟩))
      · cases h
    · cases h
  | assign φ =>
    simp only [step] at h
    split at h
    · exact .inr (.inr (.inr (.inl ⟨φ, _, _, rfl, ‹_›, (Option.some.inj h).symm⟩)))
    · cases h
  | unlock =>
    simp only [step] at h
    split at h
    · split_ifs at h with hall
      exact .inr (.inr (.inr (.inr ⟨_, _, rfl, ‹_›, hall, (Option.some.inj h).symm⟩)))
    · cases h

/-- One event keeps `ke.f` where the sequential worker is, after the contexts it loaded. -/
theorem pending_step {L : List KubeContext} {s s' : State} {e : Event} (hi : Inv L s)
    (h : step isSame s e = some s') {c : KubeContext} {ls : List KubeContext}
    (hp : tickerWith isSame c ls = pending isSame s) :
    tickerWith isSame c (ls ++ e.load) = pending isSame s' := by
  rcases step_cases h with ⟨i, x, rfl, hl⟩ | ⟨saf, rfl, hw, rfl⟩ | ⟨saf, same, rfl, hw, hs, rfl⟩ |
    ⟨φ, done, saf, rfl, hw, rfl⟩ | ⟨done, saf, rfl, hw, hall, rfl⟩
  · rw [hl, List.append_nil, hp]; rfl
  · rw [Event.load, tickerWith_append, hp]
    simp [pending, hw]
  · simp only [Event.load, List.append_nil, hp]
    cases same <;> simp [pending, hw, refreshWith, hs]
  · simp only [Event.load, List.append_nil, hp]
    simp [pending, hw]
  · -- the write is complete, so `ke.f` is the context written
    simp only [Event.load, List.append_nil, hp]
    simp [pending, hw, (hi.assigning done saf hw).eq hall]

theorem pending_run {c : KubeContext} : ∀ {L : List KubeContext} {s : State} (es : List Event)
    {t : State} {ls : List KubeContext}, Inv L s → tickerWith isSame c ls = pending isSame s →
    run isSame s es = some t → tickerWith isSame c (ls ++ es.flatMap Event.load) = pending isSame t
  | _, _, [], _, _, _, hp, h => by cases h; simpa using hp
  | _, _, e :: es, _, _, hi, hp, h => by
    simp only [Birger.Endpoint.run, Option.bind_eq_some] at h
    obtain ⟨s₁, h₁, h₂⟩ := h
    simpa [List.append_assoc] using pending_run es (hi.step h₁) (pending_step hi h₁ hp) h₂

/-- Every interleaving of the lock-level endpoint agrees with the sequential worker run on
the contexts it has loaded: the worker's pending round, or the context it stores, is what
`tickerWith` gives; in particular, outside a round, `ke.f` is the stored context of
`updateServerContextTicker` over the loads so far. -/
theorem run_refines_ticker (isSame : KubeContext → KubeContext → Option Bool) (c : KubeContext)
    (n : Nat) (es : List Event) {s : State} (h : run isSame (init c n) es = some s) :
    tickerWith isSame c (es.flatMap Event.load) = pending isSame s := by
  simpa using @pending_run isSame c _ _ es _ [] (inv_init c n) rfl h

theorem run_refines_ticker_demo :
    tickerWith ServiceConfig.isSameAs (tokenContext "t1") (rotateThenRead.flatMap Event.load) =
      pending ServiceConfig.isSameAs ⟨tokenContext "t2", [.returned (tokenContext "t2")], .loading,
        [tokenContext "t1", tokenContext "t2"]⟩ :=
  run_refines_ticker ServiceConfig.isSameAs (tokenContext "t1") 1 rotateThenRead rfl

end Birger.Endpoint
