import Birger.Sanity.Table
import Mathlib.Data.List.Nodup
import Mathlib.Data.Set.Function
import Mathlib.Order.Interval.Set.Defs

/-! Route selection in `findService` and `Send`. The candidate list holds, in increasing
order, exactly the positions of the slice whose route has the searched endpoint; so a
draw in `[0, c)` never panics, and draws correspond one to one to matching positions. -/

namespace Birger

variable {R M : Type} (rt : Route R M)

/-- The positions of `l` whose route has the endpoint `ep` searches for. -/
def matching (l : List R) (ep : Search) : Set Nat :=
  {i | ∃ h : i < l.length, rt.hasEndpoint l[i] ep.endpointType ep.endpointName = true}

/-- The slice position `findService` picks for the draw `k`. -/
def selected (l : List R) (ep : Search) (k : Nat) : Nat := (possibleRoutes rt l ep).getD k 0

theorem foldl_possibleRoutes (ep : Search) : ∀ (L : List (Nat × R)) (acc : List Nat),
    L.foldl (fun acc (i, a) =>
        if rt.hasEndpoint a ep.endpointType ep.endpointName then acc ++ [i] else acc) acc =
      acc ++ (L.filter fun x => rt.hasEndpoint x.2 ep.endpointType ep.endpointName).map Prod.fst
  | [], acc => by simp
  | (i, a) :: L, acc => by
    rw [List.foldl_cons, foldl_possibleRoutes ep L]
    by_cases h : rt.hasEndpoint a ep.endpointType ep.endpointName = true <;> simp [h]

theorem possibleRoutes_eq (l : List R) (ep : Search) :
    possibleRoutes rt l ep =
      (l.enum.filter fun x => rt.hasEndpoint x.2 ep.endpointType ep.endpointName).map Prod.fst :=
  (foldl_possibleRoutes rt ep l.enum []).trans (List.nil_append _)

theorem mem_possibleRoutes (l : List R) (ep : Search) (i : Nat) :
    i ∈ possibleRoutes rt l ep ↔ i ∈ matching rt l ep := by
  simp only [possibleRoutes_eq, List.mem_map, List.mem_filter, List.mem_enum_iff_getElem?,
    Prod.exists, matching, Set.mem_setOf_eq]
  constructor
  · rintro ⟨_, x, ⟨hx, hm⟩, rfl⟩
    obtain ⟨h, rfl⟩ := List.getElem?_eq_some_iff.1 hx
    exact ⟨h, hm⟩
  · rintro ⟨h, hm⟩
    exact ⟨i, l[i], ⟨List.getElem?_eq_getElem h, hm⟩, rfl⟩

theorem possibleRoutes_eq_nil_iff (l : List R) (ep : Search) :
    possibleRoutes rt l ep = [] ↔ ∀ a ∈ l, rt.hasEndpoint a ep.endpointType ep.endpointName = false := by
  rw [List.eq_nil_iff_forall_not_mem]
  simp only [mem_possibleRoutes, matching, Set.mem_setOf_eq, not_exists, Bool.not_eq_true]
  exact ⟨fun h a ha => by obtain ⟨i, hi, rfl⟩ := List.mem_iff_getElem.1 ha; exact h i hi,
    fun h i hi => h _ (List.getElem_mem hi)⟩

/-- `findService` fails with "no routes connected" on an absent or empty slice, and with
"no such route" when the slice has routes but none has the endpoint. -/
theorem findService_error (s : ConnectedRoutes R) (ep : Search) (draw : Nat → Nat) :
    (s.list ep.name = [] → findService rt s ep draw = some (.error (.noRoutesConnected ep))) ∧
      (s.list ep.name ≠ [] →
        (∀ a ∈ s.list ep.name, rt.hasEndpoint a ep.endpointType ep.endpointName = false) →
        findService rt s ep draw = some (.error (.noSuchRoute ep))) := by
  unfold findService
  cases hm : s.m ep.name with
  | none => exact ⟨fun _ => rfl, fun h => absurd (by simp [ConnectedRoutes.list, hm]) h⟩
  | some l =>
    simp only [ConnectedRoutes.list, hm, Option.getD_some]
    refine ⟨fun h => by simp [h], fun h hno => ?_⟩
    simp [List.length_eq_zero, h, (possibleRoutes_eq_nil_iff rt l ep).2 hno]

end Birger
