import Birger.Sanity.Table
import Mathlib.Data.Multiset.Basic

/-! The route table refines a multiset of live routes. Abstractly, `Add` inserts one copy
of a route and `Remove` deletes one copy if there is one; the table is that multiset
split by `GetName()`, whatever positions the swap-with-last moves routes to. -/

namespace Birger

variable {R M : Type} [DecidableEq R] (rt : Route R M)

/-- The abstract table: one multiset of routes. -/
def absApply (ms : Multiset R) : Op R → Multiset R
  | .add r => r ::ₘ ms
  | .remove r => ms.erase r

/-- The abstract table after a sequence of operations, from the empty multiset. -/
def absRun (ops : List (Op R)) : Multiset R := ops.foldl absApply 0

/-- The table refines the multiset `ms`: every slice holds routes of its own name, and,
counted with multiplicity, exactly the routes of `ms` with that name. -/
structure Refines (s : ConnectedRoutes R) (ms : Multiset R) : Prop where
  named : ∀ n, ∀ a ∈ s.list n, rt.getName a = n
  slices : ∀ n, (s.list n : Multiset R) = ms.filter (fun a => rt.getName a = n)

theorem multiset_filter_erase (p : R → Prop) [DecidablePred p] (ms : Multiset R) (r : R) :
    (ms.erase r).filter p = if p r then (ms.filter p).erase r else ms.filter p := by
  rw [← Multiset.sub_singleton, Multiset.filter_sub, Multiset.filter_singleton]
  split_ifs <;> simp [Multiset.sub_singleton]

omit [DecidableEq R] in
theorem refines_makeRoutes : Refines rt makeRoutes (0 : Multiset R) :=
  ⟨fun _ _ h => by simp at h, fun _ => by simp⟩

omit [DecidableEq R] in
theorem Refines.add {s : ConnectedRoutes R} {ms : Multiset R} (h : Refines rt s ms) (r : R) :
    Refines rt (add rt s r) (r ::ₘ ms) := by
  refine ⟨fun n a ha => ?_, fun n => ?_⟩ <;> rw [list_add] at * <;> split_ifs at * with hn
  · rcases List.mem_append.1 ha with ha | ha
    · exact h.named n a ha
    · rw [List.mem_singleton.1 ha, hn]
  · exact h.named n a ha
  · rw [Multiset.coe_eq_coe.2 (List.perm_append_singleton r _), ← Multiset.cons_coe, h.slices]
    simp [Multiset.filter_cons, hn]
  · simp [Multiset.filter_cons, h.slices, Ne.symm hn]

theorem Refines.remove {s : ConnectedRoutes R} {ms : Multiset R} (h : Refines rt s ms) (r : R) :
    Refines rt (remove rt s r) (ms.erase r) := by
  refine ⟨fun n a ha => ?_, fun n => ?_⟩
  · replace ha := (list_remove_perm rt s r n).subset ha
    split_ifs at ha
    · exact h.named n a (List.mem_of_mem_erase ha)
    · exact h.named n a ha
  · rw [Multiset.coe_eq_coe.2 (list_remove_perm rt s r n), multiset_filter_erase]
    split_ifs with hn hn' hn'
    · rw [← Multiset.coe_erase, h.slices]
    · exact absurd hn.symm hn'
    · exact absurd hn'.symm hn
    · exact h.slices n

theorem Refines.apply {s : ConnectedRoutes R} {ms : Multiset R} (h : Refines rt s ms) :
    ∀ op : Op R, Refines rt (op.apply rt s) (absApply ms op)
  | .add r => h.add rt r
  | .remove r => h.remove rt r

theorem Refines.run {s : ConnectedRoutes R} {ms : Multiset R} (h : Refines rt s ms)
    (ops : List (Op R)) : Refines rt (run rt s ops) (ops.foldl absApply ms) := by
  induction ops generalizing s ms with
  | nil => exact h
  | cons op ops ih => exact ih (h.apply rt op)

/-- Every run of `Add` and `Remove` from `MakeRoutes` refines the same run on a multiset,
and `Remove` never touches the slice of another name. -/
theorem run_refines_multiset (ops : List (Op R)) :
    Refines rt (run rt makeRoutes ops) (absRun ops) ∧
      ∀ (r : R) (n : String), n ≠ rt.getName r →
        (remove rt (run rt makeRoutes ops) r).list n = (run rt makeRoutes ops).list n :=
  ⟨(refines_makeRoutes rt).run rt ops, fun r n hn => by simp [list_remove, hn]⟩

/-! ## Statistics -/

/-- `keys` lists each key of the map once, as a `range` over it visits them. -/
def MapKeys (s : ConnectedRoutes R) (keys : List String) : Prop :=
  keys.Nodup ∧ ∀ n, n ∈ keys ↔ (s.m n).isSome

omit [DecidableEq R] in
theorem getStatistics_eq {S : Type} (statistics : R → S) (s : ConnectedRoutes R)
    (keys : List String) :
    getStatistics statistics s keys = keys.flatMap fun n => (s.list n).map statistics := by
  have hinner : ∀ (l : List R) (ret : List S),
      l.foldl (fun ret route => ret ++ [statistics route]) ret = ret ++ l.map statistics := by
    intro l; induction l with
    | nil => simp
    | cons a l ih => intro ret; simp [ih]
  suffices ∀ ret, keys.foldl (fun ret name =>
      (s.list name).foldl (fun ret route => ret ++ [statistics route]) ret) ret =
      ret ++ keys.flatMap fun n => (s.list n).map statistics from this []
  induction keys with
  | nil => simp
  | cons k keys ih => intro ret; rw [List.foldl_cons, ih, hinner]; simp

omit [DecidableEq R] in
theorem Refines.flatMap_keys {s : ConnectedRoutes R} {ms : Multiset R} (h : Refines rt s ms) :
    ∀ keys : List String, keys.Nodup →
      ((keys.flatMap s.list : List R) : Multiset R) = ms.filter fun a => rt.getName a ∈ keys
  | [], _ => (Multiset.filter_eq_nil.2 fun _ _ h => h).symm
  | k :: keys, hn => by
    rw [List.nodup_cons] at hn
    have hdisj : (ms.filter fun a => rt.getName a = k ∧ rt.getName a ∈ keys) = 0 :=
      Multiset.filter_eq_nil.2 fun a _ ha => hn.1 (ha.1 ▸ ha.2)
    rw [List.flatMap_cons, ← Multiset.coe_add, h.slices, h.flatMap_keys keys hn.2,
      Multiset.filter_add_filter, hdisj, add_zero]
    exact Multiset.filter_congr fun a _ => by simp

/-- Over the keys of the map in any order, `GetStatistics` after a run from `MakeRoutes`
returns the statistics of each live route once per copy of it, and nothing else. -/
theorem getStatistics_run {S : Type} (statistics : R → S) (ops : List (Op R))
    (keys : List String) (hk : MapKeys (run rt makeRoutes ops) keys) :
    (getStatistics statistics (run rt makeRoutes ops) keys : Multiset S) =
      (absRun ops).map statistics := by
  have h : Refines rt (run rt makeRoutes ops) (absRun ops) := (refines_makeRoutes rt).run rt ops
  have hall : ∀ a ∈ absRun ops, rt.getName a ∈ keys := fun a ha => by
    have : a ∈ (run rt makeRoutes ops).list (rt.getName a) := by
      rw [← Multiset.mem_coe, h.slices]; exact Multiset.mem_filter.2 ⟨ha, rfl⟩
    rw [hk.2]
    cases hm : (run rt makeRoutes ops).m (rt.getName a) with
    | none => simp [ConnectedRoutes.list, hm] at this
    | some _ => rfl
  rw [getStatistics_eq, ← List.map_flatMap, ← Multiset.map_coe, h.flatMap_keys rt keys hk.1,
    Multiset.filter_eq_self.2 hall]

theorem getStatistics_run_demo :
    (getStatistics id (run demoRoute makeRoutes [.add "x", .add "y", .remove "x"]) ["a1"] :
      Multiset String) = (absRun [.add "x", .add "y", .remove "x"]).map id :=
  getStatistics_run demoRoute id _ ["a1"]
    ⟨by decide, fun n => by
      have hi : (sliceIndex 2 fun i => ["x", "y"][i]? == some "x") = 0 := rfl
      by_cases h : n = "a1" <;>
        simp [h, hi, run, add, remove, demoRoute, makeRoutes, Function.update_apply]⟩

end Birger
