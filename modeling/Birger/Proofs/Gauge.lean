import Birger.Sanity.Table

/-! `connectedRoutesGauge` counts the routes under each name in every state a run from
`MakeRoutes` reaches, and `Add(r)` followed by `Remove(r)` restores any table, the gauge
included. Both rest on `Remove` taking out one route exactly when it finds one. -/

namespace Birger

variable {R M : Type} [DecidableEq R] (rt : Route R M)

/-- The gauge of every name is the length of that name's slice. -/
def GaugeCounts (s : ConnectedRoutes R) : Prop := ∀ n, s.gauge n = (s.list n).length

theorem length_swapRemove_indexOf {l : List R} {r : R} (h : r ∈ l) :
    (swapRemove l (l.indexOf r)).length = l.length - 1 := by
  rw [(swapRemove_perm l (List.indexOf_lt_length.2 h)).length_eq,
    List.length_eraseIdx_of_lt (List.indexOf_lt_length.2 h)]

omit [DecidableEq R] in
theorem GaugeCounts.add {s : ConnectedRoutes R} (h : GaugeCounts s) (r : R) :
    GaugeCounts (add rt s r) := fun n => by
  rw [gauge_add, list_add]; split_ifs <;> simp [h n]

theorem GaugeCounts.remove {s : ConnectedRoutes R} (h : GaugeCounts s) (r : R) :
    GaugeCounts (remove rt s r) := fun n => by
  rw [gauge_remove, list_remove]
  split_ifs with hn
  · have := List.length_pos_of_mem hn.2
    rw [length_swapRemove_indexOf hn.2, h n]; omega
  · exact h n

theorem GaugeCounts.run {s : ConnectedRoutes R} (h : GaugeCounts s) :
    ∀ ops : List (Op R), GaugeCounts (run rt s ops)
  | [] => h
  | .add r :: ops => (h.add rt r).run ops
  | .remove r :: ops => (h.remove rt r).run ops

/-- From `MakeRoutes`, the gauge of each name counts the routes under it, never goes
negative, and a `Remove` of a route missing from its slice leaves it unchanged. -/
theorem gauge_eq_length_run (ops : List (Op R)) (n : String) :
    (run rt makeRoutes ops).gauge n = ((run rt makeRoutes ops).list n).length ∧
      0 ≤ (run rt makeRoutes ops).gauge n ∧
      ∀ r : R, r ∉ (run rt makeRoutes ops).list (rt.getName r) →
        (remove rt (run rt makeRoutes ops) r).gauge = (run rt makeRoutes ops).gauge := by
  have h := GaugeCounts.run rt (s := makeRoutes) (fun _ => rfl) ops n
  exact ⟨h, h ▸ Int.ofNat_nonneg _, fun r hr => by rw [remove_of_not_mem rt _ r hr]⟩

/-- `Add(r)` then `Remove(r)` gives back every slice, in order, and every gauge. -/
theorem remove_add_restores (s : ConnectedRoutes R) (r : R) :
    (∀ n, (remove rt (add rt s r) r).list n = s.list n) ∧
      (remove rt (add rt s r) r).gauge = s.gauge := by
  have hidx : (s.list (rt.getName r) ++ [r])[(s.list (rt.getName r) ++ [r]).indexOf r]? =
      some r := by
    rw [List.getElem?_eq_getElem (List.indexOf_lt_length.2 (by simp)), List.getElem_indexOf]
  refine ⟨fun n => ?_, funext fun n => ?_⟩
  · rw [list_remove, list_add]
    by_cases hn : n = rt.getName r
    · subst hn; simp [list_add, swapRemove_append_self _ _ hidx]
    · simp [hn, list_add]
  · rw [gauge_remove, gauge_add, list_add]
    by_cases hn : n = rt.getName r
    · subst hn; simp [gauge_add]
    · simp [hn]

/-- The route an operation is about. -/
def Op.route : Op R → R
  | .add r => r
  | .remove r => r

theorem apply_frame (s : ConnectedRoutes R) (op : Op R) {n : String}
    (h : rt.getName op.route ≠ n) :
    (op.apply rt s).list n = s.list n ∧ (op.apply rt s).gauge n = s.gauge n := by
  cases op with
  | add r => simp [list_add, gauge_add, Ne.symm (show rt.getName r ≠ n from h)]
  | remove r => simp [list_remove, gauge_remove, Ne.symm (show rt.getName r ≠ n from h)]

/-- Operations on the routes of other names never disturb the slice or the gauge of `n`. -/
theorem run_frame_other_name (n : String) :
    ∀ (s : ConnectedRoutes R) (ops : List (Op R)), (∀ op ∈ ops, rt.getName op.route ≠ n) →
      (run rt s ops).list n = s.list n ∧ (run rt s ops).gauge n = s.gauge n
  | _, [], _ => ⟨rfl, rfl⟩
  | s, op :: ops, h => by
    obtain ⟨hl, hg⟩ := apply_frame rt s op (h op (List.mem_cons_self _ _))
    obtain ⟨hl', hg'⟩ := run_frame_other_name n (op.apply rt s) ops
      fun op' hop' => h op' (List.mem_cons_of_mem _ hop')
    exact ⟨hl'.trans hl, hg'.trans hg⟩

/-- Routes named by their first component. -/
def pairRoute : Route (String × String) Unit :=
  ⟨Prod.fst, Prod.snd, fun _ _ _ => true, fun r _ => r.2⟩

def pairTable : ConnectedRoutes (String × String) := run pairRoute makeRoutes [.add ("a2", "x")]

def pairOps : List (Op (String × String)) :=
  [.add ("a1", "y"), .add ("a3", "z"), .remove ("a1", "y")]

theorem run_frame_other_name_demo :
    (run pairRoute pairTable pairOps).list "a2" = [("a2", "x")] ∧
      (run pairRoute pairTable pairOps).gauge "a2" = 1 := by
  obtain ⟨hl, hg⟩ := run_frame_other_name pairRoute "a2" pairTable pairOps (by decide)
  exact ⟨hl.trans (by decide), hg.trans (by decide)⟩

end Birger
