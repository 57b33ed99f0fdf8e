import Birger.Spec.Agent

/-! The frames `executeHTTPRequest` sends for one transaction. When building or running
the request fails, a single 502; otherwise the header frame, a chunk for each non-empty
read in read order, and the empty terminator unless the read was cancelled. Hence the
frames follow the protocol's order for the transaction and carry exactly the bytes read. -/

namespace Birger

/-- The frames the protocol prescribes for a body whose reads returned `reads` and ended
with the error `e`. -/
def bodyFrames (id : String) (reads : List (List UInt8)) (e : ReadError) :
    List HttpTunnelControl :=
  (reads.filter fun d => !d.isEmpty).map (makeChunkedResponse id) ++
    if e = .canceled then [] else [makeChunkedResponse id []]

/-- The protocol's rules for the frames of transaction `id` with body bytes `bytes`. -/
structure Conforming (id : String) (bytes : List UInt8) (frames : List HttpTunnelControl) :
    Prop where
  carries_id : ∀ f ∈ frames, f.id = id
  header_first : ∃ r rest, frames = .httpTunnelResponse r :: rest ∧
    ∀ f ∈ rest, ∃ c, f = .httpTunnelChunkedResponse c
  terminator_last : ∀ i (h : i < frames.length), frames[i].isTerminator → i + 1 = frames.length
  chunk_size : ∀ c, .httpTunnelChunkedResponse c ∈ frames → c.body.length ≤ readBufferSize
  payload : (frames.map HttpTunnelControl.payload).flatten = bytes

/-- Reads that return data without an error send their chunks at once, ahead of whatever
the rest of the body makes the loop send. -/
theorem bodyLoop_append (id : String) (rest : List ReadResult) :
    ∀ pre : List (List UInt8), bodyLoop id (pre.map (fun d => ⟨d, none⟩) ++ rest) =
      (pre.filter fun d => !d.isEmpty).map (makeChunkedResponse id) ++ bodyLoop id rest
  | [] => rfl
  | d :: pre => by
    rw [List.map_cons, List.cons_append, bodyLoop, bodyLoop_append id rest pre]
    rcases d with _ | ⟨b, d⟩ <;> simp

/-- The read loop, over reads that end at the first error, sends the prescribed frames. -/
theorem bodyLoop_eq (id : String) (pre : List (List UInt8)) (last : List UInt8) (e : ReadError) :
    bodyLoop id (pre.map (fun d => ⟨d, none⟩) ++ [⟨last, some e⟩]) = bodyFrames id (pre ++ [last]) e := by
  rw [bodyLoop_append, bodyFrames, List.filter_append, List.map_append, List.append_assoc]
  congr 1
  cases e <;> rcases last with _ | ⟨b, last⟩ <;> simp [bodyLoop]

theorem terminator_last_append (A T : List HttpTunnelControl)
    (hA : ∀ f ∈ A, f.isTerminator = false) (hT : T.length ≤ 1) :
    ∀ i (h : i < (A ++ T).length), (A ++ T)[i].isTerminator → i + 1 = (A ++ T).length := by
  intro i h ht
  by_cases hi : i < A.length
  · rw [List.getElem_append_left hi, hA _ (List.getElem_mem hi)] at ht
    cases ht
  · simp only [List.length_append] at h ⊢; omega

theorem conforming_bodyFrames (id : String) (get : HttpResponse) (reads : List (List UInt8))
    (e : ReadError) (hsize : ∀ d ∈ reads, d.length ≤ readBufferSize) :
    Conforming id reads.flatten (makeResponse id get :: bodyFrames id reads e) where
  carries_id := by
    simp only [List.mem_cons, bodyFrames, List.mem_append, List.mem_map]
    rintro f (rfl | ⟨d, -, rfl⟩ | hf)
    · rfl
    · rfl
    · split_ifs at hf
      · cases hf
      · rw [List.mem_singleton.1 hf]; rfl
  header_first := by
    refine ⟨_, _, rfl, fun f hf => ?_⟩
    simp only [bodyFrames, List.mem_append, List.mem_map] at hf
    rcases hf with ⟨d, -, rfl⟩ | hf
    · exact ⟨_, rfl⟩
    · split_ifs at hf
      · cases hf
      · exact ⟨_, List.mem_singleton.1 hf⟩
  terminator_last := by
    rw [bodyFrames, ← List.cons_append]
    refine terminator_last_append _ _ (fun f hf => ?_) (by split_ifs <;> simp)
    simp only [List.mem_cons, List.mem_map, List.mem_filter] at hf
    rcases hf with rfl | ⟨d, ⟨-, hd⟩, rfl⟩
    · rfl
    · simpa [makeChunkedResponse, HttpTunnelControl.isTerminator] using hd
  chunk_size := by
    intro c hc
    simp only [bodyFrames, makeResponse, makeChunkedResponse, List.mem_cons, List.mem_append,
      List.mem_map, List.mem_filter] at hc
    rcases hc with hc | ⟨d, ⟨hd, -⟩, hc⟩ | hc
    · cases hc
    · cases hc; exact hsize d hd
    · split_ifs at hc
      · cases hc
      · cases List.mem_singleton.1 hc; simp
  payload := by
    have : ∀ d, (makeChunkedResponse id d).payload = d := fun _ => rfl
    simp only [bodyFrames, List.map_cons, List.map_append, List.map_map, Function.comp_def, this,
      List.map_id', List.flatten_cons, List.flatten_append, List.flatten_filter_not_isEmpty]
    split_ifs <;> simp [makeResponse, makeChunkedResponse, HttpTunnelControl.payload]

/-- The frames of `executeHTTPRequest`: a lone 502 when the request cannot be built or run;
otherwise, for reads of at most `10240` bytes ending at the first error, the header frame
and the prescribed body frames, which follow the protocol's rules. -/
theorem executeHTTPRequest_frames (stack : HttpStack) (c : KubeContext)
    (req : OpenHTTPTunnelRequest) :
    ((stack.newRequestError req.method (c.serverURL ++ req.uri)).isSome ∨
        (∃ err, stack.clientDo (transportOf c) (outboundRequest stack c req) = .error err) →
      executeHTTPRequest stack c req = [makeBadGatewayResponse req.id]) ∧
    ∀ (get : HttpResponse) (pre : List (List UInt8)) (last : List UInt8) (e : ReadError),
      stack.newRequestError req.method (c.serverURL ++ req.uri) = none →
      stack.clientDo (transportOf c) (outboundRequest stack c req) = .ok get →
      get.body = pre.map (fun d => ⟨d, none⟩) ++ [⟨last, some e⟩] →
      (∀ d ∈ pre ++ [last], d.length ≤ readBufferSize) →
      executeHTTPRequest stack c req = makeResponse req.id get :: bodyFrames req.id (pre ++ [last]) e ∧
        Conforming req.id (pre ++ [last]).flatten (executeHTTPRequest stack c req) := by
  refine ⟨fun h => ?_, fun get pre last e hnew hdo hbody hsize => ?_⟩
  · unfold executeHTTPRequest
    rcases h with h | ⟨err, h⟩
    · obtain ⟨msg, hm⟩ := Option.isSome_iff_exists.1 h
      rw [hm]
    · cases hnew : stack.newRequestError req.method (c.serverURL ++ req.uri)
      · simp only [h]
      · rfl
  · have heq : executeHTTPRequest stack c req =
        makeResponse req.id get :: bodyFrames req.id (pre ++ [last]) e := by
      simp only [executeHTTPRequest, hnew, hdo, hbody, bodyLoop_eq]
    exact ⟨heq, heq ▸ conforming_bodyFrames req.id get _ e hsize⟩

/-- A response of three reads, the second empty and the last ending at EOF. -/
def demoGet : HttpResponse := ⟨200, [], 5, [⟨[1, 2], none⟩, ⟨[], none⟩, ⟨[3, 4, 5], some .eof⟩]⟩

def demoStack : HttpStack := ⟨id, fun _ _ => none, fun _ _ => .ok demoGet⟩

def demoCluster : KubeContext := ⟨"ServiceAccount", "https://10.0.0.1:443", none, none, "", true⟩

def demoRequest : OpenHTTPTunnelRequest := ⟨"r1", "GET", "/api", [], []⟩

theorem executeHTTPRequest_frames_demo :
    executeHTTPRequest demoStack demoCluster demoRequest =
        makeResponse "r1" demoGet :: bodyFrames "r1" [[1, 2], [], [3, 4, 5]] .eof ∧
      Conforming "r1" [1, 2, 3, 4, 5] (executeHTTPRequest demoStack demoCluster demoRequest) :=
  (executeHTTPRequest_frames demoStack demoCluster demoRequest).2 demoGet [[1, 2], []] [3, 4, 5]
    .eof rfl rfl rfl (by decide)

/-! ## The outbound request -/

theorem foldl_headerAdd (stack : HttpStack) (name k : String) :
    ∀ (vs : List String) (h : String → List String),
      vs.foldl (fun h v => headerAdd stack h name v) h k =
        if stack.canonicalHeaderKey name = k then h k ++ vs else h k
  | [], h => by simp
  | v :: vs, h => by
    rw [List.foldl_cons, foldl_headerAdd stack name k vs]
    by_cases hk : stack.canonicalHeaderKey name = k
    · subst hk; simp [headerAdd]
    · simp [headerAdd, Function.update_apply, hk, Ne.symm hk]

theorem foldl_headers (stack : HttpStack) (k : String) :
    ∀ (hs : List HttpHeader) (h : String → List String),
      hs.foldl (fun h hd => hd.values.foldl (fun h v => headerAdd stack h hd.name v) h) h k =
        h k ++ (hs.filter fun hd => stack.canonicalHeaderKey hd.name = k).flatMap HttpHeader.values
  | [], h => by simp
  | hd :: hs, h => by
    rw [List.foldl_cons, foldl_headers stack k hs, foldl_headerAdd]
    by_cases hk : stack.canonicalHeaderKey hd.name = k <;> simp [hk]

/-- Under every header key, the request handed to `client.Do` carries the values of the
tunneled headers with that key, in order and with their multiplicity, except that a token
sets `Authorization` to `Bearer <token>` alone. -/
theorem outboundRequest_header (stack : HttpStack) (c : KubeContext) (req : OpenHTTPTunnelRequest)
    (k : String) :
    (outboundRequest stack c req).header k =
      if c.token ≠ "" ∧ k = stack.canonicalHeaderKey "Authorization" then ["Bearer " ++ c.token]
      else (req.headers.filter fun hd => stack.canonicalHeaderKey hd.name = k).flatMap
        HttpHeader.values := by
  have hfold := foldl_headers stack k req.headers fun _ => []
  simp only [List.nil_append] at hfold
  simp only [outboundRequest]
  by_cases ht : c.token = ""
  · simp [ht, hfold]
  · have hlen : c.token.length > 0 := Nat.pos_of_ne_zero (length_ne_zero_of_ne_empty ht)
    by_cases hk : k = stack.canonicalHeaderKey "Authorization"
    · subst hk; simp [hlen, ht, headerSet]
    · simp [hlen, ht, hk, headerSet, Function.update_apply, hfold]

end Birger
