import Birger.Spec.Credentials

/-! The refactoring of `isSameAs` from `app/agent` into `serviceconfig` (through
`x509CertEqual` and `tlsCertEqual`) changed no answer and no panic, so the two
credential-refresh workers replace the stored context on the same loaded contexts. -/

namespace Birger

theorem ite_some_beq {α : Type} [BEq α] [LawfulBEq α] (x y : α) [Decidable (x = y)] :
    (if x = y then some true else some false) = some (x == y) := by
  by_cases h : x = y <;> simp [h]

/-- The two comparisons agree on every pair of contexts, failures included, and so do the
two refresh workers on every sequence of loaded contexts. -/
theorem isSameAs_refactor_eq :
    (∀ a b : KubeContext, Agent.isSameAs a b = ServiceConfig.isSameAs a b) ∧
      ∀ (f : KubeContext) (loads : List KubeContext),
        Agent.updateServerContextTicker f loads = ServiceConfig.updateServerContextTicker f loads := by
  have h : ∀ a b : KubeContext, Agent.isSameAs a b = ServiceConfig.isSameAs a b := by
    -- one case per nil / non-nil server CA and client certificate on either side
    rintro ⟨u, s, _ | ca, _ | cc, t, i⟩ ⟨u', s', _ | ca', _ | cc', t', i'⟩ <;>
      simp [Agent.isSameAs, ServiceConfig.isSameAs, ServiceConfig.x509CertEqual,
        ServiceConfig.tlsCertEqual, ite_some_beq]
  refine ⟨h, fun f loads => ?_⟩
  have hfun : Agent.isSameAs = ServiceConfig.isSameAs := funext fun a => funext (h a)
  rw [Agent.updateServerContextTicker, ServiceConfig.updateServerContextTicker, hfun]

/-- A context whose client certificate, if it has one, has a leaf, as `tls.X509KeyPair`
produces. -/
def HasLeaf (c : KubeContext) : Prop := ∀ cc ∈ c.clientCert, cc.certificate ≠ []

theorem tlsCertEqual_isSome {a b : Option TlsCertificate} (ha : ∀ cc ∈ a, cc.certificate ≠ [])
    (hb : ∀ cc ∈ b, cc.certificate ≠ []) : (ServiceConfig.tlsCertEqual a b).isSome := by
  rcases a with _ | ⟨_ | ⟨x, _⟩⟩ <;> rcases b with _ | ⟨_ | ⟨y, _⟩⟩ <;>
    simp_all [ServiceConfig.tlsCertEqual]

theorem isSameAs_isSome {a b : KubeContext} (ha : HasLeaf a) (hb : HasLeaf b) :
    (ServiceConfig.isSameAs a b).isSome := by
  unfold ServiceConfig.isSameAs
  split_ifs
  · rfl
  · rfl
  · exact tlsCertEqual_isSome ha hb

theorem isSameAs_self {c : KubeContext} (h : HasLeaf c) : ServiceConfig.isSameAs c c = some true := by
  rcases c with ⟨u, s, _ | ⟨ca⟩, _ | ⟨_ | ⟨x, _⟩⟩, t, i⟩ <;>
    simp_all [HasLeaf, ServiceConfig.isSameAs, ServiceConfig.x509CertEqual,
      ServiceConfig.tlsCertEqual, X509Certificate.equal]

theorem x509CertEqual_eq_true {a b : Option X509Certificate} :
    ServiceConfig.x509CertEqual a b = true ↔ a = b := by
  rcases a with _ | ⟨⟨ra⟩⟩ <;> rcases b with _ | ⟨⟨rb⟩⟩ <;>
    simp [ServiceConfig.x509CertEqual, X509Certificate.equal]

theorem tlsCertEqual_leaf {a b : Option TlsCertificate}
    (h : ServiceConfig.tlsCertEqual a b = some true) :
    a.map (·.certificate.head?) = b.map (·.certificate.head?) := by
  rcases a with _ | ⟨_ | ⟨x, _⟩⟩ <;> rcases b with _ | ⟨_ | ⟨y, _⟩⟩ <;>
    simp_all [ServiceConfig.tlsCertEqual]

/-- A refresh is skipped only when the loaded context could not change what the executor
sends: contexts that `isSameAs` finds the same build the same outbound request, trust the
same server CA with the same verification setting, and present client certificates with the
same leaf. -/
theorem isSameAs_same_connection {a b : KubeContext} (h : ServiceConfig.isSameAs a b = some true)
    (stack : HttpStack) (req : OpenHTTPTunnelRequest) :
    outboundRequest stack a req = outboundRequest stack b req ∧
      (tlsConfigOf a).rootCAs = (tlsConfigOf b).rootCAs ∧
      (tlsConfigOf a).insecureSkipVerify = (tlsConfigOf b).insecureSkipVerify ∧
      (tlsConfigOf a).certificates.map (·.certificate.head?) =
        (tlsConfigOf b).certificates.map (·.certificate.head?) := by
  unfold ServiceConfig.isSameAs at h
  split_ifs at h with hfields hca
  · cases h
  · cases h
  push_neg at hfields
  obtain ⟨-, hurl, htok, hins⟩ := hfields
  have hca' : a.serverCA = b.serverCA := by simpa [x509CertEqual_eq_true] using hca
  have hleaf := tlsCertEqual_leaf h
  refine ⟨by rw [outboundRequest, outboundRequest, hurl, htok], by simp [tlsConfigOf, hca'], hins, ?_⟩
  cases ha : a.clientCert <;> cases hb : b.clientCert <;> simp_all [tlsConfigOf]

/-- A kubeconfig context whose client certificate has the chain `chain`. -/
def adminContext (chain : List (List UInt8)) : KubeContext :=
  ⟨"admin", "https://10.0.0.1:6443", none, some ⟨chain⟩, "", false⟩

theorem isSameAs_same_connection_demo :
    ServiceConfig.isSameAs (adminContext [[1], [2]]) (adminContext [[1], [3]]) = some true ∧
      outboundRequest ⟨id, fun _ _ => none, fun _ _ => .error ""⟩ (adminContext [[1], [2]])
          ⟨"1", "GET", "/api", [], []⟩ =
        outboundRequest ⟨id, fun _ _ => none, fun _ _ => .error ""⟩ (adminContext [[1], [3]])
          ⟨"1", "GET", "/api", [], []⟩ := by
  have h : ServiceConfig.isSameAs (adminContext [[1], [2]]) (adminContext [[1], [3]]) = some true := by
    simp [ServiceConfig.isSameAs, ServiceConfig.x509CertEqual, ServiceConfig.tlsCertEqual,
      adminContext]
  exact ⟨h, (isSameAs_same_connection h _ _).1⟩

/-- One round of the worker keeps a stored context with a leaf, and leaves one that
compares equal to the context just loaded. -/
theorem refresh_tracks {f saf : KubeContext} (hf : HasLeaf f) (hs : HasLeaf saf) :
    ∃ f', refreshWith ServiceConfig.isSameAs f saf = some f' ∧ HasLeaf f' ∧
      ServiceConfig.isSameAs f' saf = some true := by
  obtain ⟨same, hsame⟩ := Option.isSome_iff_exists.1 (isSameAs_isSome hf hs)
  cases same with
  | false => exact ⟨saf, by simp [refreshWith, hsame], hs, isSameAs_self hs⟩
  | true => exact ⟨f, by simp [refreshWith, hsame], hf, hsame⟩

/-- When every context the worker holds or loads has a leaf in its client certificate,
the refresh worker never panics, and after each round the stored context compares equal
to the context loaded last. -/
theorem updateServerContextTicker_tracks :
    ∀ (f : KubeContext) (loads : List KubeContext), HasLeaf f → (∀ c ∈ loads, HasLeaf c) →
      ∃ f', ServiceConfig.updateServerContextTicker f loads = some f' ∧
        ∀ last ∈ loads.getLast?, ServiceConfig.isSameAs f' last = some true
  | f, [], _, _ => ⟨f, rfl, by simp⟩
  | f, saf :: rest, hf, hl => by
    obtain ⟨f', hstep, hf', hsame⟩ := refresh_tracks hf (hl saf (List.mem_cons_self _ _))
    obtain ⟨f'', hrun, hlast⟩ := updateServerContextTicker_tracks f' rest hf'
      fun c hc => hl c (List.mem_cons_of_mem _ hc)
    have hrun' : ServiceConfig.updateServerContextTicker f (saf :: rest) = some f'' := by
      simpa [ServiceConfig.updateServerContextTicker, tickerWith, hstep] using hrun
    refine ⟨f'', hrun', fun last hlast' => ?_⟩
    cases rest with
    | nil =>
      cases hrun
      cases hlast'
      exact hsame
    | cons c cs => exact hlast last (by simpa [List.getLast?_cons_cons] using hlast')

/-- A service-account context, before and after its token is rotated. -/
def demoContext (token : String) : KubeContext :=
  ⟨"ServiceAccount", "https://10.0.0.1:443", none, none, token, true⟩

theorem updateServerContextTicker_tracks_demo :
    ∃ f', ServiceConfig.updateServerContextTicker (demoContext "t1")
        [demoContext "t1", demoContext "t2"] = some f' ∧
      ∀ last ∈ [demoContext "t1", demoContext "t2"].getLast?,
        ServiceConfig.isSameAs f' last = some true :=
  updateServerContextTicker_tracks _ _ (by simp [HasLeaf, demoContext])
    (by simp [HasLeaf, demoContext])

/-! ## The worker over real loads -/

/-- `tls.X509KeyPair` returns a chain with a leaf whenever it succeeds. -/
def KeyPairContract (ld : Loader) : Prop :=
  ∀ certData keyData cert, ld.x509KeyPair certData keyData = .ok cert → cert.certificate ≠ []

theorem contextFor_hasLeaf {ld : Loader} (hk : KeyPairContract ld) {user : KubeUser}
    {cluster : KubeCluster} {c : KubeContext} (h : contextFor ld user cluster = .done c) :
    HasLeaf c := by
  unfold contextFor at h
  repeat' split at h
  all_goals try cases h
  next hkp _ _ _ =>
    rintro cc ⟨⟩
    exact hk _ _ _ hkp

theorem loadServiceAccount_clientCert {ld : Loader} {sa : KubeContext}
    (h : loadServiceAccount ld = .done (.ok sa)) : sa.clientCert = none := by
  simp only [loadServiceAccount] at h
  repeat' split at h
  all_goals cases h
  rfl

theorem loadKubernetesSecurity_hasLeaf {ld : Loader} (hk : KeyPairContract ld) {path : String}
    {c : KubeContext} (h : loadKubernetesSecurity ld path = .done c) : HasLeaf c := by
  unfold loadKubernetesSecurity at h
  split at h
  · cases h
  · unfold serverContextFromKubeconfig at h
    split at h
    · split at h
      · cases h
      · exact contextFor_hasLeaf hk h
    · cases h
  · split at h <;> cases h
    next hsa => intro cc hcc; simp [loadServiceAccount_clientCert hsa] at hcc

/-- How a process whose loads are `lds` can end in `o`: every load returned and the stored
context compares equal to the last one, or `o` is how the first load that did not return
ended. -/
def EndsAsLoads (kubeConfig : String) (lds : List Loader) (o : Outcome KubeContext) : Prop :=
  (∃ f, o = .done f ∧ (∀ ld ∈ lds, ∃ c, loadKubernetesSecurity ld kubeConfig = .done c) ∧
      ∀ ld ∈ lds.getLast?, ∀ c, loadKubernetesSecurity ld kubeConfig = .done c →
        ServiceConfig.isSameAs f c = some true) ∨
    ∃ pre ld post, lds = pre ++ ld :: post ∧
      (∀ ld' ∈ pre, ∃ c, loadKubernetesSecurity ld' kubeConfig = .done c) ∧
      (∀ c, loadKubernetesSecurity ld kubeConfig ≠ .done c) ∧ o = loadKubernetesSecurity ld kubeConfig

theorem EndsAsLoads.stop {kubeConfig : String} {ld : Loader} {o : Outcome KubeContext}
    (rest : List Loader) (hload : loadKubernetesSecurity ld kubeConfig = o)
    (h : ∀ c, o ≠ .done c) : EndsAsLoads kubeConfig (ld :: rest) o :=
  .inr ⟨[], ld, rest, rfl, by simp, hload ▸ h, hload.symm⟩

/-- A load that returned `saf`, ahead of loads that end in `o`; `f` is what is stored when
no load follows. -/
theorem EndsAsLoads.cons {kubeConfig : String} {ld : Loader} {rest : List Loader}
    {saf f : KubeContext} {o : Outcome KubeContext}
    (hload : loadKubernetesSecurity ld kubeConfig = .done saf)
    (hsame : ServiceConfig.isSameAs f saf = some true) (hnil : rest = [] → o = .done f)
    (h : EndsAsLoads kubeConfig rest o) : EndsAsLoads kubeConfig (ld :: rest) o := by
  rcases h with ⟨f', hdone, hall, hlast⟩ | ⟨pre, l, post, rfl, hpre, hl, hout⟩
  · refine .inl ⟨f', hdone, List.forall_mem_cons.2 ⟨⟨saf, hload⟩, hall⟩, ?_⟩
    cases rest with
    | nil =>
      obtain rfl : f' = f := by simpa [hdone] using hnil rfl
      simpa [hload] using hsame
    | cons l ls => simpa [List.getLast?_cons_cons] using hlast
  · exact .inr ⟨ld :: pre, l, post, rfl, List.forall_mem_cons.2 ⟨⟨saf, hload⟩, hpre⟩, hl, hout⟩

/-- The worker's rounds, from a stored context with a leaf, end as their loads end. -/
theorem refreshRounds_ends (kubeConfig : String) :
    ∀ (f : KubeContext) (lds : List Loader), HasLeaf f → (∀ ld ∈ lds, KeyPairContract ld) →
      EndsAsLoads kubeConfig lds (refreshRounds kubeConfig f lds)
  | f, [], _, _ => .inl ⟨f, rfl, by simp, by simp⟩
  | f, ld :: rest, hf, hk => by
    have hk' : ∀ l ∈ rest, KeyPairContract l := fun l hl => hk l (List.mem_cons_of_mem _ hl)
    cases hload : loadKubernetesSecurity ld kubeConfig with
    | done saf =>
      obtain ⟨f', hstep, hf', hsame⟩ :=
        refresh_tracks hf (loadKubernetesSecurity_hasLeaf (hk ld (List.mem_cons_self _ _)) hload)
      have hrun : refreshRounds kubeConfig f (ld :: rest) = refreshRounds kubeConfig f' rest := by
        simp only [refreshRounds, hload, hstep]
      rw [hrun]
      exact (refreshRounds_ends kubeConfig f' rest hf' hk').cons hload hsame
        fun h => by subst h; rfl
    | fatal | panic =>
      rw [refreshRounds, hload]
      exact .stop rest hload (by simp)

/-- When `tls.X509KeyPair` gives every loaded key pair a leaf, an endpoint's comparison never
panics: the endpoint ends as its loads end, at start and in every round of its worker, and
while they all return, it holds a context that compares equal to the last one loaded. -/
theorem makeKubernetesEndpoint_ends (configured : String) (ld : Loader) (rounds : List Loader)
    (hk : ∀ l ∈ ld :: rounds, KeyPairContract l) :
    EndsAsLoads (kubeConfigPath configured) (ld :: rounds)
      (makeKubernetesEndpoint configured ld rounds) := by
  unfold makeKubernetesEndpoint
  cases hload : loadKubernetesSecurity ld (kubeConfigPath configured) with
  | done f =>
    have hf := loadKubernetesSecurity_hasLeaf (hk ld (List.mem_cons_self _ _)) hload
    exact (refreshRounds_ends _ f rounds hf fun l hl => hk l (List.mem_cons_of_mem _ hl)).cons
      hload (isSameAs_self hf) fun h => by subst h; rfl
  | fatal | panic => exact .stop rounds hload (by simp)

/-- An in-pod loader whose service-account token is `token`. -/
def demoLoader (token : List UInt8) : Loader where
  openKubeConfig _ := none
  readFile _ := .ok token
  getenv name := if name = "KUBERNETES_SERVICE_PORT" then "443" else "10.0.0.1"
  decodeBase64 _ := .ok []
  x509KeyPair certData _ := .ok ⟨[certData]⟩
  pemDecode := some
  parseCertificate raw := .ok ⟨raw⟩

theorem makeKubernetesEndpoint_ends_demo :
    EndsAsLoads (kubeConfigPath "") [demoLoader [1], demoLoader [2]]
      (makeKubernetesEndpoint "" (demoLoader [1]) [demoLoader [2]]) :=
  makeKubernetesEndpoint_ends "" _ _ (by simp [KeyPairContract, demoLoader])

end Birger
