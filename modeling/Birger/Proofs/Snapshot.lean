import Birger.Spec.Endpoint

/-! No request sees a torn context. In every interleaving of the requests' copies with the
worker's refreshes, under any comparison, a snapshot `makeServerContextFields` returns is one
of the contexts `ke.f` has held in full: the one the endpoint started with or one the worker
wrote completely. The lock makes each copy see a single value of `ke.f`, and `ke.f` is only
ever partly written while the worker holds the lock. -/

namespace Birger.Endpoint

@[simp] theorem copyField_idem (a b : KubeContext) (φ : Field) :
    copyField (copyField a b φ) b φ = copyField a b φ := by
  cases φ <;> rfl

theorem copyField_comm (a b : KubeContext) (φ ψ : Field) :
    copyField (copyField a b φ) b ψ = copyField (copyField a b ψ) b φ := by
  cases φ <;> cases ψ <;> rfl

theorem Field.mem_all (φ : Field) : φ ∈ Field.all := by
  cases φ <;> simp [Field.all]

/-- `a` already holds the fields `done` of `b`. -/
def Agrees (done : List Field) (a b : KubeContext) : Prop := ∀ φ ∈ done, copyField a b φ = a

theorem Agrees.cons {done : List Field} {a b : KubeContext} (h : Agrees done a b) (φ : Field) :
    Agrees (φ :: done) (copyField a b φ) b :=
  List.forall_mem_cons.2 ⟨copyField_idem a b φ, fun ψ hψ => by rw [copyField_comm, h ψ hψ]⟩

theorem Agrees.eq {done : List Field} {a b : KubeContext} (h : Agrees done a b)
    (hall : Field.all.all (· ∈ done) = true) : a = b := by
  have hf (φ : Field) : copyField a b φ = a :=
    h φ (by simpa using List.all_eq_true.1 hall φ (Field.mem_all φ))
  have := hf .username; have := hf .serverURL; have := hf .serverCA
  have := hf .clientCert; have := hf .token; have := hf .insecure
  clear hf
  cases a; cases b; simp_all [copyField]

theorem Writer.eq_loading_of_free {w : Writer} (h : w.holdsLock = false) : w = .loading := by
  cases w <;> simp_all [Writer.holdsLock]

/-- What every reachable state satisfies, `L` being the contexts the endpoint started with
or loaded: the lock excludes the worker from the readers; a copying reader has copied the
current `ke.f`; returned snapshots and, outside a write, `ke.f` itself were held in full; a
write in progress has copied its fields of `saf`; and all of them come from `L`. -/
structure Inv (L : List KubeContext) (s : State) : Prop where
  exclusive : s.writer.holdsLock = true → ∀ r ∈ s.readers, r.holdsLock = false
  reading : ∀ done snap, Reader.copying done snap ∈ s.readers → Agrees done snap s.f
  returned : ∀ snap, Reader.returned snap ∈ s.readers → snap ∈ s.held
  whole : s.writer.isAssigning = false → s.f ∈ s.held
  assigning : ∀ done saf, s.writer = .assigning done saf → Agrees done s.f saf
  held_loaded : ∀ x ∈ s.held, x ∈ L
  writer_loaded : ∀ saf ∈ s.writer.loaded, saf ∈ L

theorem inv_init (c : KubeContext) (n : Nat) : Inv [c] (init c n) where
  exclusive h := by simp [init, Writer.holdsLock] at h
  reading _ _ h := by simp [init] at h
  returned _ h := by simp [init] at h
  whole _ := List.mem_singleton_self c
  assigning _ _ h := by cases h
  held_loaded _ h := h
  writer_loaded _ h := by simp [init, Writer.loaded] at h

section

variable {isSame : KubeContext → KubeContext → Option Bool} {L : List KubeContext}
  {s s' : State}

theorem Inv.not_copying (hi : Inv L s) (hw : s.writer.holdsLock = true) {done : List Field}
    {snap : KubeContext} : Reader.copying done snap ∉ s.readers :=
  fun h => by simpa [Reader.holdsLock] using hi.exclusive hw _ h

theorem Inv.writer_free (hi : Inv L s) {r : Reader} (hr : r ∈ s.readers)
    (hl : r.holdsLock = true) : s.writer.holdsLock = false := by
  cases hw : s.writer.holdsLock
  · rfl
  · simp [hi.exclusive hw r hr] at hl

/-- A reader event replaces reader `i` by `x`; it keeps the invariant when `x` takes the
lock only while the worker does not hold it, and what `x` has copied or returned is right. -/
theorem Inv.setReader (hi : Inv L s) (i : Nat) (x : Reader)
    (hlock : x.holdsLock = true → s.writer.holdsLock = false)
    (hcopy : ∀ done snap, x = .copying done snap → Agrees done snap s.f)
    (hret : ∀ snap, x = .returned snap → snap ∈ s.held) :
    Inv L { s with readers := s.readers.set i x } where
  exclusive hw r hr := by
    rcases List.mem_or_eq_of_mem_set hr with hr | rfl
    · exact hi.exclusive hw r hr
    · cases h : r.holdsLock
      · rfl
      · simp [hlock h] at hw
  reading done snap h := by
    rcases List.mem_or_eq_of_mem_set h with h | h
    · exact hi.reading done snap h
    · exact hcopy done snap h.symm
  returned snap h := by
    rcases List.mem_or_eq_of_mem_set h with h | h
    · exact hi.returned snap h
    · exact hret snap h.symm
  whole := hi.whole
  assigning := hi.assigning
  held_loaded := hi.held_loaded
  writer_loaded := hi.writer_loaded

theorem Inv.rlock (hi : Inv L s) {i : Nat} (h : step isSame s (.rlock i) = some s') :
    Inv L s' := by
  simp only [step] at h
  split at h
  · split_ifs at h with hl
    cases h
    simp only [Bool.or_eq_true, not_or, Bool.not_eq_true] at hl
    exact hi.setReader i _ (fun _ => hl.2) (fun _ _ hx => by cases hx; simp [Agrees])
      (fun _ hx => by cases hx)
  · cases h

theorem Inv.read (hi : Inv L s) {i : Nat} {φ : Field} (h : step isSame s (.read i φ) = some s') :
    Inv L s' := by
  simp only [step] at h
  split at h
  · cases h
    rename_i done snap hr
    have hm := List.getElem?_mem hr
    exact hi.setReader i _ (fun _ => hi.writer_free hm rfl)
      (fun _ _ hx => by cases hx; exact (hi.reading done snap hm).cons φ) (fun _ hx => by cases hx)
  · cases h

/-- A reader returns only once it has copied every field of the `ke.f` it saw, which the
worker was not writing. -/
theorem Inv.runlock (hi : Inv L s) {i : Nat} (h : step isSame s (.runlock i) = some s') :
    Inv L s' := by
  simp only [step] at h
  split at h
  · split_ifs at h with hall
    cases h
    rename_i done snap hr
    have hm := List.getElem?_mem hr
    have hfree := hi.writer_free hm rfl
    refine hi.setReader i _ (fun hx => by cases hx) (fun _ _ hx => by cases hx) fun _ hx => ?_
    cases hx
    rw [(hi.reading done snap hm).eq hall]
    exact hi.whole (by rw [Writer.eq_loading_of_free hfree]; rfl)
  · cases h

theorem Inv.lock (hi : Inv L s) {saf : KubeContext} (h : step isSame s (.lock saf) = some s') :
    Inv (L ++ [saf]) s' := by
  simp only [step] at h
  split at h
  · split_ifs at h with hr
    cases h
    rename_i hw
    exact { exclusive := fun _ r hm => by simpa using List.all_eq_true.1 hr r hm
            reading := hi.reading
            returned := hi.returned
            whole := fun _ => hi.whole (by simp [hw, Writer.isAssigning])
            assigning := fun _ _ h => by cases h
            held_loaded := fun x hx => List.mem_append_left _ (hi.held_loaded x hx)
            writer_loaded := fun x hx => by
              cases hx; exact List.mem_append_right _ (List.mem_singleton_self _) }
  · cases h

theorem Inv.compare (hi : Inv L s) (h : step isSame s .compare = some s') : Inv L s' := by
  simp only [step] at h
  split at h
  · rename_i saf hw
    have hsaf : saf ∈ L := hi.writer_loaded saf (by simp [hw, Writer.loaded])
    split at h
    · cases h
      exact { exclusive := fun h => by simp [Writer.holdsLock] at h
              reading := hi.reading
              returned := hi.returned
              whole := fun _ => hi.whole (by simp [hw, Writer.isAssigning])
              assigning := fun _ _ h => by cases h
              held_loaded := hi.held_loaded
              writer_loaded := fun _ h => by simp [Writer.loaded] at h }
    · cases h
      exact { exclusive := fun _ => hi.exclusive (by simp [hw, Writer.holdsLock])
              reading := hi.reading
              returned := hi.returned
              whole := fun h => by simp [Writer.isAssigning] at h
              assigning := fun _ _ h => by cases h; simp [Agrees]
              held_loaded := hi.held_loaded
              writer_loaded := fun _ h => by cases h; exact hsaf }
    · cases h
  · cases h

theorem Inv.assign (hi : Inv L s) {φ : Field} (h : step isSame s (.assign φ) = some s') :
    Inv L s' := by
  simp only [step] at h
  split at h
  · rename_i done saf hw
    cases h
    have hlock : s.writer.holdsLock = true := by simp [hw, Writer.holdsLock]
    exact { exclusive := fun _ => hi.exclusive hlock
            reading := fun _ _ h => absurd h (hi.not_copying hlock)
            returned := hi.returned
            whole := fun h => by simp [Writer.isAssigning] at h
            assigning := fun _ _ h => by cases h; exact (hi.assigning done saf hw).cons φ
            held_loaded := hi.held_loaded
            writer_loaded := fun _ h => by
              cases h; exact hi.writer_loaded saf (by simp [hw, Writer.loaded]) }
  · cases h

/-- The worker releases the lock only once `ke.f` holds all of `saf`. -/
theorem Inv.unlock (hi : Inv L s) (h : step isSame s .unlock = some s') : Inv L s' := by
  simp only [step] at h
  split at h
  · rename_i done saf hw
    split_ifs at h with hall
    cases h
    have hlock : s.writer.holdsLock = true := by simp [hw, Writer.holdsLock]
    have hsaf : saf ∈ L := hi.writer_loaded saf (by simp [hw, Writer.loaded])
    exact { exclusive := fun h => by simp [Writer.holdsLock] at h
            reading := fun _ _ h => absurd h (hi.not_copying hlock)
            returned := fun snap h => List.mem_append_left _ (hi.returned snap h)
            whole := fun _ => by
              rw [(hi.assigning done saf hw).eq hall]
              exact List.mem_append_right _ (List.mem_singleton_self saf)
            assigning := fun _ _ h => by cases h
            held_loaded := fun x hx => by
              rcases List.mem_append.1 hx with hx | hx
              · exact hi.held_loaded x hx
              · rw [List.mem_singleton.1 hx]; exact hsaf
            writer_loaded := fun _ h => by simp [Writer.loaded] at h }
  · cases h

theorem Inv.step (hi : Inv L s) {e : Event} (h : step isSame s e = some s') :
    Inv (L ++ e.load) s' := by
  cases e with
  | lock saf => exact hi.lock h
  | rlock i => simpa [Event.load] using hi.rlock h
  | read i φ => simpa [Event.load] using hi.read h
  | runlock i => simpa [Event.load] using hi.runlock h
  | compare => simpa [Event.load] using hi.compare h
  | assign φ => simpa [Event.load] using hi.assign h
  | unlock => simpa [Event.load] using hi.unlock h

theorem Inv.run : ∀ {L : List KubeContext} {s : State} (es : List Event) {t : State},
    Inv L s → run isSame s es = some t → Inv (L ++ es.flatMap Event.load) t
  | _, _, [], _, hi, h => by cases h; simpa using hi
  | _, _, e :: es, _, hi, h => by
    simp only [Birger.Endpoint.run, Option.bind_eq_some] at h
    obtain ⟨s₁, h₁, h₂⟩ := h
    simpa [List.append_assoc] using Inv.run es (hi.step h₁) h₂

end

/-- Whatever the interleaving of requests and refreshes and whatever the comparison, every
snapshot a request has taken is the context the endpoint started with or one the worker
loaded, never a mix of two. -/
theorem snapshot_loaded (isSame : KubeContext → KubeContext → Option Bool) (c : KubeContext)
    (n : Nat) (es : List Event) {s : State} (h : run isSame (init c n) es = some s) :
    ∀ snap, Reader.returned snap ∈ s.readers → snap = c ∨ Event.lock snap ∈ es := by
  intro snap hsnap
  have hi := (inv_init c n).run es h
  rcases List.mem_cons.1 (hi.held_loaded snap (hi.returned snap hsnap)) with rfl | hl
  · exact .inl rfl
  · obtain ⟨e, he, hl⟩ := List.mem_flatMap.1 hl
    cases e <;> simp only [Event.load, List.mem_singleton, List.not_mem_nil] at hl
    exact .inr (hl ▸ he)

/-- A service-account context with the token `t`. -/
def tokenContext (t : String) : KubeContext :=
  ⟨"ServiceAccount", "https://10.0.0.1:443", none, none, t, true⟩

/-- The worker replaces the token `t1` by `t2`, writing the fields in declaration order, and
then a request copies the context. -/
def rotateThenRead : List Event :=
  [.lock (tokenContext "t2"), .compare] ++ Field.all.map .assign ++ [.unlock, .rlock 0] ++
    Field.all.map (.read 0) ++ [.runlock 0]

theorem snapshot_loaded_demo :
    tokenContext "t2" = tokenContext "t1" ∨ Event.lock (tokenContext "t2") ∈ rotateThenRead :=
  @snapshot_loaded ServiceConfig.isSameAs (tokenContext "t1") 1 rotateThenRead
    ⟨tokenContext "t2", [.returned (tokenContext "t2")], .loading,
      [tokenContext "t1", tokenContext "t2"]⟩ rfl (tokenContext "t2") (List.mem_singleton_self _)

end Birger.Endpoint
