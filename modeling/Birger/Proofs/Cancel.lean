import Birger.Sanity.Table
import Birger.Spec.Agent

/-! A `Cancel` addressed to the session `Send` returned reaches that route and no other,
however the table changed in between, as long as the route was not removed: `Add` and
the `Remove` of any other route keep it in its slice, and every route in the table was
added by the run, so its session is unique there. -/

namespace Birger

variable {R M : Type} [DecidableEq R] (rt : Route R M)

omit [DecidableEq R] in
theorem mem_list_add {s : ConnectedRoutes R} {a : R} {n : String} (h : a ∈ s.list n) (r : R) :
    a ∈ (add rt s r).list n := by
  rw [list_add]; split_ifs <;> simp [h]

theorem mem_list_remove {s : ConnectedRoutes R} {a r : R} {n : String} (h : a ∈ s.list n)
    (hne : a ≠ r) : a ∈ (remove rt s r).list n := by
  rw [(list_remove_perm rt s r n).mem_iff]
  split_ifs
  · exact (List.mem_erase_of_ne hne).2 h
  · exact h

theorem mem_of_mem_list_remove {s : ConnectedRoutes R} {a : R} (r : R) {n : String}
    (h : a ∈ (remove rt s r).list n) : a ∈ s.list n := by
  rw [(list_remove_perm rt s r n).mem_iff] at h
  split_ifs at h
  · exact List.mem_of_mem_erase h
  · exact h

/-- A route no operation of the run removes stays in its slice. -/
theorem mem_list_run {a : R} {n : String} :
    ∀ {s : ConnectedRoutes R} (ops : List (Op R)), a ∈ s.list n → Op.remove a ∉ ops →
      a ∈ (run rt s ops).list n
  | _, [], h, _ => h
  | _, .add r :: ops, h, hops =>
    mem_list_run ops (mem_list_add rt h r) fun h' => hops (List.mem_cons_of_mem _ h')
  | _, .remove _ :: ops, h, hops =>
    mem_list_run ops (mem_list_remove rt h fun e => hops (e ▸ List.mem_cons_self _ _))
      fun h' => hops (List.mem_cons_of_mem _ h')

/-- Every route in the table after a run was there before or was added by the run. -/
theorem mem_added_of_mem_run {a : R} :
    ∀ {s : ConnectedRoutes R} (ops : List (Op R)) {n : String}, a ∈ (run rt s ops).list n →
      (∃ n', a ∈ s.list n') ∨ a ∈ added ops
  | _, [], n, h => .inl ⟨n, h⟩
  | s, .add r :: ops, _, h => by
    rcases mem_added_of_mem_run ops h with ⟨n', h'⟩ | h'
    · rw [Op.apply_add, list_add] at h'
      split_ifs at h'
      · rcases List.mem_append.1 h' with h' | h'
        · exact .inl ⟨n', h'⟩
        · exact .inr (by simp [added, List.mem_singleton.1 h'])
      · exact .inl ⟨n', h'⟩
    · exact .inr (List.mem_cons_of_mem _ h')
  | s, .remove r :: ops, _, h => by
    rcases mem_added_of_mem_run ops h with ⟨n', h'⟩ | h'
    · exact .inl ⟨n', mem_of_mem_list_remove rt r h'⟩
    · exact .inr h'

theorem mem_added_of_mem_makeRoutes {a : R} (ops : List (Op R)) {n : String}
    (h : a ∈ (run rt makeRoutes ops).list n) : a ∈ added ops :=
  (mem_added_of_mem_run rt ops h).resolve_left fun ⟨_, h'⟩ => by simp at h'

omit [DecidableEq R] in
theorem mem_of_findService {s : ConnectedRoutes R} {ep : Search} {draw : Nat → Nat} {r : R}
    (h : findService rt s ep draw = some (.ok r)) : r ∈ s.list ep.name := by
  unfold findService at h
  cases hm : s.m ep.name with
  | none => simp [hm] at h
  | some l =>
    simp only [hm] at h
    split_ifs at h
    · cases h
    · cases h
    · simp only [Option.bind_eq_bind, Option.bind_eq_some, Option.some.injEq] at h
      obtain ⟨_, -, _, -, r', hr', hr⟩ := h
      cases hr
      simpa [ConnectedRoutes.list, hm] using List.getElem?_mem hr'

omit [DecidableEq R] in
theorem send_eq_ok {s : ConnectedRoutes R} {ep : Search} {message : M} {draw : Nat → Nat}
    {sid : String} {r : R} (h : send rt s ep message draw = some (.ok sid, [.send r message])) :
    findService rt s ep draw = some (.ok r) ∧ sid = rt.send r message := by
  unfold send at h
  rcases hf : findService rt s ep draw with _ | _ | r'
  · simp [hf] at h
  · simp [hf] at h
  · simp only [hf, Option.map_some', Option.some.injEq, Prod.mk.injEq, Except.ok.injEq,
      List.cons.injEq, Call.send.injEq, and_true] at h
    obtain ⟨rfl, rfl⟩ := h
    exact ⟨rfl, rfl⟩

omit [DecidableEq R] in
/-- With a session, `Cancel` reads only the named slice, a missing entry counting as empty. -/
theorem cancel_of_session {s : ConnectedRoutes R} {matchesRoute : Search → R → Bool}
    {ep : Search} (id : String) (he : ep.session ≠ "") :
    cancel s matchesRoute ep id =
      if (s.list ep.name).length = 0 then
        ((.error (.noRoutesForCancel ep), []) : _ × List (Call R M))
      else match (s.list ep.name).find? (matchesRoute ep) with
        | some a => (.ok (), [.cancel a id])
        | none => (.error (.noSessionRoute ep), []) := by
  unfold cancel ConnectedRoutes.list
  rw [if_neg (length_ne_zero_of_ne_empty he)]
  cases s.m ep.name <;> rfl

omit [DecidableEq R] in
/-- With a session, `Cancel` goes through the first matching route of the slice. -/
theorem cancel_of_find_eq_some {s : ConnectedRoutes R} {matchesRoute : Search → R → Bool}
    {ep : Search} {a : R} (id : String) (he : ep.session ≠ "")
    (hf : (s.list ep.name).find? (matchesRoute ep) = some a) :
    cancel s matchesRoute ep id = ((.ok (), [.cancel a id]) : _ × List (Call R M)) := by
  have hl := (List.length_pos_of_mem (List.mem_of_find?_eq_some hf)).ne'
  rw [cancel_of_session id he, if_neg hl, hf]

/-- After `Send` delivers to `r` and returns `sid`, any run of `Add` and `Remove` without
`Remove(r)` leaves a `Cancel` for session `sid` delivered to `r` alone. -/
theorem cancel_after_send (matchesRoute : Search → R → Bool) (pre post : List (Op R))
    (ep : Search) (message : M) (draw : Nat → Nat) (r : R) (sid id : String)
    (hsend : ∀ a m, rt.send a m = rt.getSession a) (hne : ∀ a, rt.getSession a ≠ "")
    (huniq : ∀ a ∈ added (pre ++ post), ∀ b ∈ added (pre ++ post),
      rt.getSession a = rt.getSession b → a = b)
    (hmr : matchesRoute { ep with session := sid } r = true)
    (hmr' : ∀ a, rt.getSession a ≠ sid → matchesRoute { ep with session := sid } a = false)
    (hpost : Op.remove r ∉ post)
    (hs : send rt (run rt makeRoutes pre) ep message draw = some (.ok sid, [.send r message])) :
    cancel (run rt (run rt makeRoutes pre) post) matchesRoute { ep with session := sid } id =
      ((.ok (), [.cancel r id]) : Except RouteError Unit × List (Call R M)) := by
  obtain ⟨hf, hsid⟩ := send_eq_ok rt hs
  rw [hsend] at hsid
  subst hsid
  have hrun : run rt (run rt makeRoutes pre) post = run rt makeRoutes (pre ++ post) :=
    (List.foldl_append _ _ _ _).symm
  have hr : r ∈ (run rt makeRoutes (pre ++ post)).list ep.name :=
    hrun ▸ mem_list_run rt post (mem_of_findService rt hf) hpost
  rw [hrun]
  obtain ⟨a, ha⟩ := Option.isSome_iff_exists.1 (List.find?_isSome.2 ⟨r, hr, hmr⟩)
  -- the first match has the session of `r`, and sessions of added routes are unique
  obtain rfl : a = r := by
    by_contra har
    have hsame := huniq a (mem_added_of_mem_makeRoutes rt _ (List.mem_of_find?_eq_some ha)) r
      (mem_added_of_mem_makeRoutes rt _ hr)
    simpa [hmr' a fun he => har (hsame he)] using List.find?_some ha
  exact cancel_of_find_eq_some id (hne a) ha

theorem cancel_after_send_demo :
    cancel (run demoRoute (run demoRoute makeRoutes [.add "x", .add "y"]) [.add "z", .remove "y"])
        (fun ep a => ep.session == demoRoute.getSession a) { demoSearch with session := "sx" } "t1" =
      ((.ok (), [.cancel "x" "t1"]) : Except RouteError Unit × List (Call String Unit)) :=
  cancel_after_send demoRoute _ [.add "x", .add "y"] [.add "z", .remove "y"] demoSearch ()
    (fun _ => 0) "x" "sx" "t1" (fun _ _ => rfl)
    (fun a h => by simpa [demoRoute, show "s".length = 1 from rfl] using congrArg String.length h)
    (fun a _ b _ h => String.ext (List.append_cancel_left (congrArg String.data h))) rfl
    (fun _ h => beq_eq_false_iff_ne.2 (Ne.symm h)) (by decide) rfl

end Birger
