import Birger.Spec.Route

/-! What `Add` and `Remove` do to one slice, said once. `sliceIndex` over the identity
predicate is `List.indexOf`, and swapping the last route into the found index and
truncating is a permutation of erasing that index, so `Remove` permutes the slice into
`List.erase`. Every later result reads the table through `list_add`, `list_remove`,
`gauge_add` and `gauge_remove`. -/

namespace Birger

variable {R M : Type} (rt : Route R M)

theorem swapRemove_concat (l : List R) (z : R) (i : Nat) :
    swapRemove (l ++ [z]) i = ((l ++ [z]).set i z).dropLast := by
  simp only [swapRemove, List.getLast?_concat]

theorem swapRemove_middle_perm (a b : List R) (x : R) :
    (swapRemove (a ++ x :: b) a.length).Perm (a ++ b) := by
  rcases List.eq_nil_or_concat b with rfl | ⟨L, z, rfl⟩
  · simp [swapRemove_concat]
  · have hset : ((a ++ x :: L) ++ [z]).set a.length z = (a ++ z :: L) ++ [z] := by simp
    rw [List.concat_eq_append, show a ++ x :: (L ++ [z]) = (a ++ x :: L) ++ [z] by simp,
      swapRemove_concat, hset, List.dropLast_concat]
    exact List.perm_middle.trans (by simpa using (List.perm_append_singleton z (a ++ L)).symm)

/-- Swap-with-last-then-truncate at an index in range permutes erasing that index. -/
theorem swapRemove_perm (l : List R) {i : Nat} (hi : i < l.length) :
    (swapRemove l i).Perm (l.eraseIdx i) := by
  obtain ⟨a, x, b, rfl, rfl⟩ : ∃ a x b, l = a ++ x :: b ∧ i = a.length :=
    ⟨l.take i, l[i], l.drop (i + 1), by simp, by simp; omega⟩
  rw [List.eraseIdx_eq_take_drop_succ]
  simpa using swapRemove_middle_perm a b x

/-- Removing the route just appended gives the slice back, wherever its first copy is. -/
theorem swapRemove_append_self (l : List R) (r : R) {i : Nat}
    (hi : (l ++ [r])[i]? = some r) : swapRemove (l ++ [r]) i = l := by
  obtain ⟨_, hget⟩ := List.getElem?_eq_some_iff.1 hi
  have hset : (l ++ [r]).set i r = l ++ [r] := by
    refine List.ext_getElem (by simp) fun j _ _ => ?_
    rw [List.getElem_set]
    split_ifs with hij
    · subst hij; exact hget.symm
    · rfl
  rw [swapRemove_concat, hset, List.dropLast_concat]

/-! ## The two table operations -/

theorem list_update (s : ConnectedRoutes R) (n n' : String) (l : List R) (g : String → Int) :
    ({ m := Function.update s.m n (some l), gauge := g } : ConnectedRoutes R).list n' =
      if n' = n then l else s.list n' := by
  by_cases h : n' = n
  · subst h; simp [ConnectedRoutes.list]
  · simp [ConnectedRoutes.list, Function.update_apply, h]

@[simp] theorem list_makeRoutes (n : String) : (makeRoutes : ConnectedRoutes R).list n = [] := rfl

@[simp] theorem gauge_makeRoutes (n : String) : (makeRoutes : ConnectedRoutes R).gauge n = 0 :=
  rfl

theorem list_add (s : ConnectedRoutes R) (r : R) (n : String) :
    (add rt s r).list n = if n = rt.getName r then s.list n ++ [r] else s.list n := by
  rw [add, list_update]
  split_ifs with h
  · subst h; rfl
  · rfl

theorem gauge_add (s : ConnectedRoutes R) (r : R) (n : String) :
    (add rt s r).gauge n = if n = rt.getName r then s.gauge n + 1 else s.gauge n := by
  simp only [add, Function.update_apply]
  split_ifs with h
  · rw [h]
  · rfl

variable [DecidableEq R]

@[simp] theorem Op.apply_add (s : ConnectedRoutes R) (r : R) :
    (Op.add r).apply rt s = Birger.add rt s r := rfl

@[simp] theorem Op.apply_remove (s : ConnectedRoutes R) (r : R) :
    (Op.remove r).apply rt s = Birger.remove rt s r := rfl

theorem sliceIndexFrom_eq (r : R) (p : Nat → Bool) :
    ∀ (l : List R) (i : Nat), (∀ j < l.length, p (i + j) = (l[j]? == some r)) →
      sliceIndexFrom p i l.length = if r ∈ l then ((i + l.indexOf r : Nat) : Int) else -1
  | [], _, _ => rfl
  | a :: t, i, hp => by
    have h0 : p i = (a == r) := by simpa using hp 0 (by simp)
    have ht : ∀ j < t.length, p (i + 1 + j) = (t[j]? == some r) := fun j hj => by
      simpa [Nat.add_assoc, Nat.add_comm 1 j] using hp (j + 1) (by simp [hj])
    by_cases har : a = r
    · subst har; simp [sliceIndexFrom, h0, List.indexOf_cons_eq]
    · simp only [List.length_cons, sliceIndexFrom, h0, beq_iff_eq, har, if_false,
        sliceIndexFrom_eq r p t (i + 1) ht, List.mem_cons, Ne.symm har, false_or,
        List.indexOf_cons_ne _ har]
      split_ifs <;> simp [Nat.add_assoc, Nat.add_comm 1]

/-- The loop in `Remove` finds the first occurrence of the route. -/
theorem sliceIndex_eq_indexOf (l : List R) (r : R) :
    sliceIndex l.length (fun i => l[i]? == some r) =
      if r ∈ l then (l.indexOf r : Int) else -1 := by
  simpa using sliceIndexFrom_eq r _ l 0 (fun j _ => by simp)

/-- `Remove` of a route its name's slice lacks (or of an unknown name) leaves every slice and
the gauge as they were. -/
theorem remove_of_not_mem (s : ConnectedRoutes R) (r : R)
    (h : r ∉ s.list (rt.getName r)) : remove rt s r = s := by
  dsimp only [remove]
  split
  · rfl
  · next l hl =>
    have : r ∉ l := by simpa [ConnectedRoutes.list, hl] using h
    simp [sliceIndex_eq_indexOf, this]

/-- `Remove` of a route its name's slice holds swap-removes its first occurrence. -/
theorem remove_of_mem (s : ConnectedRoutes R) (r : R) (h : r ∈ s.list (rt.getName r)) :
    remove rt s r =
      { m := Function.update s.m (rt.getName r)
          (some (swapRemove (s.list (rt.getName r)) ((s.list (rt.getName r)).indexOf r)))
        gauge := Function.update s.gauge (rt.getName r) (s.gauge (rt.getName r) - 1) } := by
  dsimp only [remove]
  split
  · next hn => simp [ConnectedRoutes.list, hn] at h
  · next l hl =>
    have hm : r ∈ l := by simpa [ConnectedRoutes.list, hl] using h
    simp [sliceIndex_eq_indexOf, hm, ConnectedRoutes.list, hl]

theorem list_remove (s : ConnectedRoutes R) (r : R) (n : String) :
    (remove rt s r).list n =
      if n = rt.getName r ∧ r ∈ s.list n then swapRemove (s.list n) ((s.list n).indexOf r)
      else s.list n := by
  by_cases hm : r ∈ s.list (rt.getName r)
  · rw [remove_of_mem rt s r hm, list_update]
    by_cases h : n = rt.getName r
    · subst h; simp [hm]
    · simp [h]
  · rw [remove_of_not_mem rt s r hm]
    split_ifs with h
    · exact absurd (h.1 ▸ h.2) hm
    · rfl

theorem gauge_remove (s : ConnectedRoutes R) (r : R) (n : String) :
    (remove rt s r).gauge n =
      if n = rt.getName r ∧ r ∈ s.list n then s.gauge n - 1 else s.gauge n := by
  by_cases hm : r ∈ s.list (rt.getName r)
  · rw [remove_of_mem rt s r hm]
    by_cases h : n = rt.getName r
    · subst h; simp [hm]
    · simp [Function.update_apply, h]
  · rw [remove_of_not_mem rt s r hm]
    split_ifs with h
    · exact absurd (h.1 ▸ h.2) hm
    · rfl

/-- `Remove` permutes the slice under the route's name into erasing one copy of it, and
leaves every other slice as it was. -/
theorem list_remove_perm (s : ConnectedRoutes R) (r : R) (n : String) :
    ((remove rt s r).list n).Perm
      (if n = rt.getName r then (s.list n).erase r else s.list n) := by
  rw [list_remove]
  by_cases h : n = rt.getName r
  · subst h
    by_cases hm : r ∈ s.list (rt.getName r)
    · simp only [hm, and_self, if_true]
      rw [← List.eraseIdx_indexOf_eq_erase]
      exact swapRemove_perm _ (List.indexOf_lt_length.2 hm)
    · simp [hm, List.erase_of_not_mem hm]
  · simp [h]

/-! ## A small table to instantiate the results on -/

/-- Routes named by their session: agent `a1` with sessions `"s" ++ r`, where only `"y"`
lacks the endpoint. -/
def demoRoute : Route String Unit where
  getName _ := "a1"
  getSession r := "s" ++ r
  hasEndpoint r _ _ := r != "y"
  send r _ := "s" ++ r

def demoSearch : Search := ⟨"a1", "kubernetes", "prod", ""⟩

end Birger
