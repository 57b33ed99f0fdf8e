import Birger.Proofs.Snapshot

/-! The lock never deadlocks the endpoint. A goroutine inside its critical section finishes
it on its own: a reader copies the remaining fields and returns, and the worker compares and,
when the context changed, writes every field and releases the lock. So from every reachable
state, unless the pending comparison panics, the goroutines that hold the lock can run until
it is free and the worker is ready for its next load. -/

namespace Birger.Endpoint

variable {isSame : KubeContext → KubeContext → Option Bool}

theorem run_append (s : State) (es es' : List Event) :
    run isSame s (es ++ es') = (run isSame s es).bind fun t => run isSame t es' := by
  induction es generalizing s with
  | nil => rfl
  | cons e es ih =>
    rw [List.cons_append]
    simp only [run, ih, Option.bind_assoc]

theorem set_eq_self_of_get {α : Type} {l : List α} {i : Nat} {x : α} (h : l[i]? = some x) :
    l.set i x = l := by
  have hi : i < l.length := (List.getElem?_eq_some_iff.1 h).1
  refine List.ext_getElem? fun j => ?_
  rw [List.getElem?_set]
  split_ifs with hj
  · subst hj; exact h.symm
  · rfl

theorem mem_reverse_append_all (done : List Field) :
    Field.all.all (· ∈ Field.all.reverse ++ done) = true :=
  List.all_eq_true.2 fun _ hφ => decide_eq_true (List.mem_append_left _ (List.mem_reverse.2 hφ))

/-! ## A reader finishes its copy -/

theorem run_reads (i : Nat) : ∀ (fs : List Field) (s : State) {done : List Field}
    {snap : KubeContext}, s.readers[i]? = some (.copying done snap) →
    ∃ snap', run isSame s (fs.map (.read i)) =
      some { s with readers := s.readers.set i (.copying (fs.reverse ++ done) snap') }
  | [], s, done, snap, h => ⟨snap, by simp [run, set_eq_self_of_get h]⟩
  | φ :: fs, s, done, snap, h => by
    have hi : i < s.readers.length := (List.getElem?_eq_some_iff.1 h).1
    obtain ⟨snap', hrun⟩ := run_reads i fs
      { s with readers := s.readers.set i (.copying (φ :: done) (copyField snap s.f φ)) }
      (List.getElem?_set_self hi)
    refine ⟨snap', ?_⟩
    simp only [List.map_cons, run, step, h, Option.some_bind]
    simpa [List.set_set] using hrun

theorem run_readAll {i : Nat} {s : State} {done : List Field} {snap : KubeContext}
    (h : s.readers[i]? = some (.copying done snap)) :
    ∃ snap', run isSame s (Field.all.map (.read i) ++ [.runlock i]) =
      some { s with readers := s.readers.set i (.returned snap') } := by
  have hi : i < s.readers.length := (List.getElem?_eq_some_iff.1 h).1
  obtain ⟨snap', hrun⟩ := @run_reads isSame i Field.all s done snap h
  refine ⟨snap', ?_⟩
  rw [run_append, hrun]
  simp only [Option.some_bind, run, step, List.getElem?_set_self hi, mem_reverse_append_all,
    if_true, List.set_set]

/-- Whatever reader `i` is doing, it can leave the lock without disturbing anyone else. -/
theorem finish_reader (s : State) (i : Nat) :
    ∃ es t, run isSame s es = some t ∧ t.f = s.f ∧ t.writer = s.writer ∧
      t.readers.length = s.readers.length ∧ (∀ j, j ≠ i → t.readers[j]? = s.readers[j]?) ∧
      ∀ r ∈ t.readers[i]?, r.holdsLock = false := by
  cases h : s.readers[i]? with
  | none => exact ⟨[], s, rfl, rfl, rfl, rfl, fun _ _ => rfl, by simp [h]⟩
  | some r =>
    cases r with
    | copying done snap =>
      obtain ⟨snap', hrun⟩ := @run_readAll isSame i s done snap h
      have hi : i < s.readers.length := (List.getElem?_eq_some_iff.1 h).1
      exact ⟨_, _, hrun, rfl, rfl, List.length_set .., fun j hj => List.getElem?_set_ne hj.symm,
        by simp [hi, Reader.holdsLock]⟩
    | idle => exact ⟨[], s, rfl, rfl, rfl, rfl, fun _ _ => rfl, by simp [h, Reader.holdsLock]⟩
    | returned snap =>
      exact ⟨[], s, rfl, rfl, rfl, rfl, fun _ _ => rfl, by simp [h, Reader.holdsLock]⟩

/-- The readers at the positions `is` can all leave the lock, the worker standing still. -/
theorem finish_readers : ∀ (is : List Nat) (s : State),
    ∃ es t, run isSame s es = some t ∧ t.writer = s.writer ∧
      t.readers.length = s.readers.length ∧ ∀ i ∈ is, ∀ r ∈ t.readers[i]?, r.holdsLock = false
  | [], s => ⟨[], s, rfl, rfl, rfl, by simp⟩
  | i :: is, s => by
    obtain ⟨es₁, t₁, h₁, hw₁, hl₁, hfree₁⟩ := finish_readers is s
    obtain ⟨es₂, t₂, h₂, -, hw₂, hl₂, hother, hi⟩ := @finish_reader isSame t₁ i
    refine ⟨es₁ ++ es₂, t₂, by rw [run_append, h₁, Option.some_bind, h₂], hw₂.trans hw₁,
      hl₂.trans hl₁, ?_⟩
    rintro j (_ | ⟨_, hj⟩)
    · exact hi
    · by_cases hji : j = i
      · exact hji ▸ hi
      · rw [hother j hji]; exact hfree₁ j hj

/-! ## The worker finishes its write -/

theorem run_assigns (saf : KubeContext) : ∀ (fs : List Field) (s : State) {done : List Field},
    s.writer = .assigning done saf →
    ∃ f', run isSame s (fs.map .assign) =
      some { s with f := f', writer := .assigning (fs.reverse ++ done) saf }
  | [], s, done, h => ⟨s.f, by cases s; cases h; rfl⟩
  | φ :: fs, s, done, h => by
    obtain ⟨f', hrun⟩ := run_assigns saf fs
      { s with f := copyField s.f saf φ, writer := .assigning (φ :: done) saf } rfl
    refine ⟨f', ?_⟩
    simp only [List.map_cons, run, step, h, Option.some_bind]
    simpa using hrun

/-- A worker in the middle of a write finishes it and releases the lock. -/
theorem finish_assigning {s : State} {done : List Field} {saf : KubeContext}
    (h : s.writer = .assigning done saf) :
    ∃ t, run isSame s (Field.all.map .assign ++ [.unlock]) = some t ∧ t.readers = s.readers ∧
      t.writer = .loading := by
  obtain ⟨f', hrun⟩ := @run_assigns isSame saf Field.all s done h
  rw [run_append, hrun]
  exact ⟨{ s with f := f', writer := .loading, held := s.held ++ [saf] },
    by simp only [Option.some_bind, run, step, mem_reverse_append_all, if_true], rfl, rfl⟩

/-- A worker holding the lock, whose comparison does not panic, releases it. -/
theorem finish_writer (s : State)
    (hsafe : ∀ saf, s.writer = .locked saf → (isSame s.f saf).isSome) :
    ∃ es t, run isSame s es = some t ∧ t.readers = s.readers ∧ t.writer = .loading := by
  cases hw : s.writer with
  | loading => exact ⟨[], s, rfl, rfl, hw⟩
  | assigning done saf =>
    obtain ⟨t, hrun, hr, hl⟩ := @finish_assigning isSame s done saf hw
    exact ⟨_, t, hrun, hr, hl⟩
  | locked saf =>
    obtain ⟨same, hsame⟩ := Option.isSome_iff_exists.1 (hsafe saf hw)
    cases same with
    | true =>
      exact ⟨[.compare], { s with writer := .loading }, by simp [run, step, hw, hsame], rfl, rfl⟩
    | false =>
      have hstep : step isSame s .compare = some { s with writer := .assigning [] saf } := by
        simp [step, hw, hsame]
      obtain ⟨t, hrun, hr, hl⟩ := @finish_assigning isSame { s with writer := .assigning [] saf }
        [] saf rfl
      exact ⟨.compare :: _, t, by simp only [run, hstep, Option.some_bind]; exact hrun, hr, hl⟩

/-- From every reachable state, unless the comparison the worker is about to make panics,
the goroutines holding the lock can finish their critical sections: the lock ends free and
the worker ready to load again. -/
theorem quiescent_reachable (isSame : KubeContext → KubeContext → Option Bool)
    (c : KubeContext) (n : Nat) (es : List Event) {s : State}
    (h : run isSame (init c n) es = some s)
    (hsafe : ∀ saf, s.writer = .locked saf → (isSame s.f saf).isSome) :
    ∃ es' t, run isSame s es' = some t ∧ t.writer = .loading ∧
      ∀ r ∈ t.readers, r.holdsLock = false := by
  have hi := (inv_init c n).run es h
  cases hw : s.writer.holdsLock
  · -- the worker is outside the lock: let every reader leave it
    obtain ⟨es', t, hrun, htw, hlen, hfree⟩ :=
      @finish_readers isSame (List.range s.readers.length) s
    refine ⟨es', t, hrun, ?_, fun r hr => ?_⟩
    · rw [htw]; exact Writer.eq_loading_of_free hw
    · obtain ⟨j, hj⟩ := List.mem_iff_getElem?.1 hr
      have hlt : j < t.readers.length := (List.getElem?_eq_some_iff.1 hj).1
      exact hfree j (List.mem_range.2 (hlen ▸ hlt)) r hj
  · -- the worker holds the lock, so no reader does
    obtain ⟨es', t, hrun, hr, hl⟩ := finish_writer s hsafe
    exact ⟨es', t, hrun, hl, hr ▸ hi.exclusive hw⟩

theorem quiescent_reachable_demo :
    ∃ es' t, run ServiceConfig.isSameAs
        ⟨tokenContext "t1", [.idle], .locked (tokenContext "t2"), [tokenContext "t1"]⟩ es' =
          some t ∧
      t.writer = .loading ∧ ∀ r ∈ t.readers, r.holdsLock = false :=
  quiescent_reachable ServiceConfig.isSameAs (tokenContext "t1") 1 [.lock (tokenContext "t2")] rfl
    fun _ h => by cases h; rfl

end Birger.Endpoint
