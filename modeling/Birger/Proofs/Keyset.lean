import Birger.Spec.Controller

/-! The keyset the controller starts with: one HS256 key per regular file of the secrets
directory, named by the file's base name, in walk order, and among them the current key;
the first unreadable or unparsable path stops the controller. `CurrentKeyName` is checked
twice, with `== ""` and then with `len(...) == 0`, so the second check never fires; and
`HeaderMutationKeyName` is checked to be set, but not to name a loaded key. -/

namespace Birger

/-- The base names of the regular files a walk visits, in order. -/
def regularNames : List WalkItem → List String
  | [] => []
  | .error _ :: rest => regularNames rest
  | .entry _ name regular :: rest => if regular then name :: regularNames rest else regularNames rest

theorem walkKeys_names (env : KeyEnv) : ∀ (items : List WalkItem) {keys : List Jwk},
    walkKeys env items = .ok keys →
      keys.map Jwk.keyID = regularNames items ∧ ∀ k ∈ keys, k.algorithm = "HS256"
  | [], keys, h => by cases h; simp [regularNames]
  | .error _ :: _, _, h => by cases h
  | .entry path name false :: rest, keys, h =>
    by simpa [regularNames] using walkKeys_names env rest (by simpa [walkKeys] using h)
  | .entry path name true :: rest, keys, h => by
    rcases hr : env.readFile path with err | content
    · simp [walkKeys, hr] at h
    rcases hn : env.newKey content with err | ⟨⟩
    · simp [walkKeys, hr, hn] at h
    rcases hw : walkKeys env rest with err | keys'
    · simp [walkKeys, hr, hn, hw, Except.map] at h
    simp only [walkKeys, hr, hn, hw, Except.map, Bool.not_true, Bool.false_eq_true, if_false,
      Except.ok.injEq] at h
    subst h
    obtain ⟨hnames, halg⟩ := walkKeys_names env rest hw
    exact ⟨by simp [regularNames, hnames], by simpa using halg⟩

/-- A walk that succeeds gives one HS256 key per regular file, named by its base name. -/
theorem walkKeys_ok (env : KeyEnv) : ∀ (items : List WalkItem) {keys : List Jwk},
    walkKeys env items = .ok keys →
      keys.map Jwk.keyID = regularNames items ∧ ∀ k ∈ keys, k.algorithm = "HS256" :=
  walkKeys_names env

def demoKeyEnv : KeyEnv :=
  ⟨[.entry "/secrets" "secrets" false, .entry "/secrets/key1" "key1" true], fun _ => .ok [1],
    fun _ => .ok ()⟩

theorem walkKeys_ok_demo :
    [(⟨"key1", "HS256", [1]⟩ : Jwk)].map Jwk.keyID = regularNames demoKeyEnv.walk ∧
      ∀ k ∈ [(⟨"key1", "HS256", [1]⟩ : Jwk)], k.algorithm = "HS256" :=
  @walkKeys_ok demoKeyEnv demoKeyEnv.walk [⟨"key1", "HS256", [1]⟩] rfl

/-- `loadKeyset` returns exactly when each of its guards passes. -/
theorem loadKeyset_done (env : KeyEnv) (config : ServiceAuthConfig) (keyset : List Jwk)
    (cur : String) :
    loadKeyset env config = .done (keyset, cur) ↔
      config.currentKeyName ≠ "" ∧ walkKeys env env.walk = .ok keyset ∧
        cur = config.currentKeyName ∧ (∃ k ∈ keyset, k.keyID = cur) ∧
        config.headerMutationKeyName.length ≠ 0 := by
  unfold loadKeyset
  by_cases hc : config.currentKeyName = ""
  · simp [hc]
  have hlen := length_ne_zero_of_ne_empty hc
  cases hw : walkKeys env env.walk with
  | error err => simp [hc]
  | ok keys =>
    simp only [hc, if_false, hlen, ne_eq, not_false_eq_true, true_and, Except.ok.injEq]
    constructor
    · intro h
      split_ifs at h with h1 h2
      cases h
      exact ⟨rfl, rfl, by simpa using h1, h2⟩
    · rintro ⟨rfl, rfl, ⟨k, hk, hkid⟩, hm⟩
      have hany : keys.any (·.keyID == config.currentKeyName) = true :=
        List.any_eq_true.2 ⟨k, hk, by simpa using hkid⟩
      simp [hany, hm]

/-- When the controller starts, `jwtKeyset` holds one HS256 key per regular file of the
secrets directory, named by its base name, in walk order, and the current key is
`CurrentKeyName`, the base name of one of those files. -/
theorem loadKeyset_started (env : KeyEnv) (config : ServiceAuthConfig) (keyset : List Jwk)
    (cur : String) (h : loadKeyset env config = .done (keyset, cur)) :
    keyset.map Jwk.keyID = regularNames env.walk ∧ (∀ k ∈ keyset, k.algorithm = "HS256") ∧
      cur = config.currentKeyName ∧ cur ∈ regularNames env.walk := by
  obtain ⟨-, hw, rfl, ⟨k, hk, hkid⟩, -⟩ := (loadKeyset_done env config keyset cur).1 h
  obtain ⟨hnames, halg⟩ := walkKeys_names env env.walk hw
  exact ⟨hnames, halg, rfl, hnames ▸ hkid ▸ List.mem_map_of_mem _ hk⟩

def demoAuth : ServiceAuthConfig := ⟨"key1", "mutation"⟩

theorem loadKeyset_started_demo :
    [(⟨"key1", "HS256", [1]⟩ : Jwk)].map Jwk.keyID = regularNames demoKeyEnv.walk ∧
      (∀ k ∈ [(⟨"key1", "HS256", [1]⟩ : Jwk)], k.algorithm = "HS256") ∧
      "key1" = demoAuth.currentKeyName ∧ "key1" ∈ regularNames demoKeyEnv.walk :=
  loadKeyset_started demoKeyEnv demoAuth _ _ rfl

/-- The second check of `CurrentKeyName` is dead: no run of `loadKeyset` ends with its
message. -/
theorem loadKeyset_ne_not_set (env : KeyEnv) (config : ServiceAuthConfig) :
    loadKeyset env config ≠ .fatal "serviceAuth.currentKeyName is not set" [] := by
  unfold loadKeyset
  by_cases hc : config.currentKeyName = ""
  · simp [hc]
  have hlen := length_ne_zero_of_ne_empty hc
  cases walkKeys env env.walk with
  | error err => simp [hc]
  | ok keys =>
    simp only [hc, hlen, if_false]
    split_ifs <;> simp

end Birger
