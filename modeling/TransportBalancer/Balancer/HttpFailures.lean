/-
  File:      TransportBalancer/Balancer/HttpFailures.lean
  Subject:   THE CLASS OF AN HTTP CLIENT'S FAILURE. `is_retryable` looks for patterns in a rendered
             text, and the text of a client failure is its kind, with the endpoint's URL behind it
             where the client names one.

  * `ClientFailure`, `HttpFailure`, `httpError` -- what can go wrong at an endpoint, and the error
    it becomes;
  * `HttpClient`, `marked_text_iff` -- a pattern occurs in a client's text exactly if it occurs in
    the kind or in the URL that is named;
  * **`classified_by_kind_iff`** -- so the kind decides the class exactly for URLs that carry what
    the kind lacks;
  * `client_failure_ends_call` -- what a call makes of a connection failure otherwise.
-/
import TransportBalancer.Balancer.Outcome
import TransportBalancer.Batching.FailureClass

namespace TransportBalancer

open Interaction Occurrence Batching

/-! ## 1. Failures -/

/-- What the client is at when its time is up. -/
inductive Phase where
  | sending
  | reading
  deriving DecidableEq

/-- **What goes wrong in the HTTP client**: there is no connection, or no answer in time, or the
    body cannot be decoded, or something of another kind. -/
inductive ClientFailure (Kind : Type) where
  | connection
  | timeout (phase : Phase)
  | undecodableBody
  | other (kind : Kind)
  deriving DecidableEq

/-- **What goes wrong at an endpoint**: the client fails, or the body is no JSON-RPC response, or
    the status is none of success. -/
inductive HttpFailure (Kind : Type) where
  | client (failure : ClientFailure Kind)
  | malformed (err text : String)
  | status (status : UInt16) (body : String)
  deriving DecidableEq

/-- How the HTTP client renders its failures: a text for each, and whether the URL of the request is
    named behind it. -/
structure HttpClient (Kind : Type) where
  describe : ClientFailure Kind → String
  namesUrl : ClientFailure Kind → Bool

section Failures

variable {Kind : Type}

/-- There is no connection, or no answer in time. -/
def ClientFailure.Connectivity : ClientFailure Kind → Prop
  | .connection | .timeout _ => True
  | _ => False

/-- A failure to reach the endpoint. -/
def HttpFailure.Connectivity : HttpFailure Kind → Prop
  | .client failure => failure.Connectivity
  | _ => False

/-- A response that is malformed or cannot be decoded. -/
def HttpFailure.Undecodable : HttpFailure Kind → Prop
  | .client .undecodableBody | .malformed _ _ => True
  | _ => False

/-- The text of a client failure: its kind, and the URL where it is named. -/
def HttpClient.text (client : HttpClient Kind) (failure : ClientFailure Kind) (url : Url) :
    String :=
  if client.namesUrl failure = true then
    client.describe failure ++ " for url (" ++ url.text ++ ")"
  else client.describe failure

/-- **The error of a failure** at an endpoint. -/
def httpError (client : HttpClient Kind) (url : Url) : HttpFailure Kind → TransportError
  | .client failure => customStr (client.text failure url)
  | .malformed err text => .deserError err text
  | .status status body => .transport (.httpError status body)

/-- The client's texts for what happens to a request or a response. -/
def kindTexts : List String :=
  ["error sending request", "request or response body error", "error decoding response body"]

/-- What is documented of the client: these are its texts for a failure to reach the endpoint and a
    body that cannot be decoded. -/
structure DescribesKinds (client : HttpClient Kind) : Prop where
  connectivity : ∀ failure : ClientFailure Kind, failure.Connectivity →
    client.describe failure ∈ kindTexts
  undecodableBody : client.describe .undecodableBody ∈ kindTexts

/-! ## 2. The patterns in a client's text -/

theorem contains_url_iff (pattern : String) (hpattern : pattern ∈ patterns) (kind : String)
    (url : Url) : containsText (kind ++ " for url (" ++ url.text ++ ")") pattern = true ↔
      containsText kind pattern = true ∨ containsText url.text pattern = true := by
  -- no pattern holds a bracket, ends with a blank, or goes on with " for url "
  have hfacts : pattern.toList ≠ [] ∧ '(' ∉ pattern.toList ∧ ')' ∉ pattern.toList ∧
      Apart pattern.toList.reverse " for url ".toList.reverse := by
    simp only [patterns, List.mem_cons, List.not_mem_nil, or_false] at hpattern
    rcases hpattern with rfl | rfl | rfl <;>
      exact ⟨by decide, by decide, by decide, ⟨by decide, by decide⟩⟩
  obtain ⟨hne, hopen, hclose, hapart⟩ := hfacts
  have htext : (kind ++ " for url (" ++ url.text ++ ")").toList =
      (kind.toList ++ " for url ".toList) ++ '(' :: (url.text.toList ++ ')' :: []) := by
    simp [String.toList_append]
  unfold containsText
  rw [decide_eq_true_iff, decide_eq_true_iff, decide_eq_true_iff, htext,
    infix_around_iff hopen, infix_around_iff hclose, hapart.append_left_iff, List.infix_nil]
  simp only [hne, or_false]

/-- The URL is named, and has a pattern. -/
def HttpClient.Names (client : HttpClient Kind) (failure : ClientFailure Kind)
    (pattern : String → Prop) (url : Url) : Prop :=
  client.namesUrl failure = true ∧ pattern url.text

/-- **A client's text carries the patterns of its kind and of the URL it names**, and no others. -/
theorem marked_text_iff (client : HttpClient Kind) (failure : ClientFailure Kind) (url : Url) :
    (Marked (client.text failure url) ↔
      Marked (client.describe failure) ∨ client.Names failure Marked url) ∧
      (Throttled (client.text failure url) ↔
        Throttled (client.describe failure) ∨ client.Names failure Throttled url) := by
  unfold HttpClient.text HttpClient.Names
  split
  · rename_i hnamed
    have htimed := contains_url_iff "timed out" (by decide) (client.describe failure) url
    have hconnection := contains_url_iff "connection" (by decide) (client.describe failure) url
    have hthrottled : Throttled (client.describe failure ++ " for url (" ++ url.text ++ ")") ↔
        Throttled (client.describe failure) ∨ Throttled url.text :=
      contains_url_iff "429 Too Many Requests" (by decide) (client.describe failure) url
    rw [and_iff_right hnamed, and_iff_right hnamed]
    refine ⟨?_, hthrottled⟩
    unfold Marked
    rw [htimed, hconnection, hthrottled]
    exact (or_congr_right or_or_or_comm).trans or_or_or_comm
  · rename_i hnot
    exact ⟨(or_iff_left fun h => hnot h.1).symm, (or_iff_left fun h => hnot h.1).symm⟩

/-- No documented text carries a pattern. -/
theorem not_marked_of_kindTexts {kind : String} (h : kind ∈ kindTexts) : ¬ Marked kind := by
  simp only [kindTexts, List.mem_cons, List.not_mem_nil, or_false] at h
  unfold Marked Throttled
  rcases h with rfl | rfl | rfl <;> decide

theorem marked_of_throttled {text : String} (h : Throttled text) : Marked text := Or.inr (Or.inr h)

/-- **A URL holds no blank**, and then the only pattern it can carry is one word. -/
theorem marked_url_iff {url : Url} (h : ' ' ∉ url.text.toList) :
    (Marked url.text ↔ containsText url.text "connection" = true) ∧ ¬ Throttled url.text := by
  have hblank : ∀ pattern : String, ' ' ∈ pattern.toList →
      ¬ containsText url.text pattern = true :=
    fun pattern hpattern hoccurs => h ((of_decide_eq_true hoccurs).subset hpattern)
  have htimed := hblank "timed out" (by decide)
  have hthrottled : ¬ Throttled url.text := hblank "429 Too Many Requests" (by decide)
  refine ⟨?_, hthrottled⟩
  unfold Marked
  rw [or_iff_right htimed, or_iff_left hthrottled]

/-! ## 3. Exactly when the kind decides -/

/-- **The class is that of the kind** at one URL and the same at another. -/
structure ClassifiedByKind (client : HttpClient Kind) (failure : HttpFailure Kind)
    (url url' : Url) : Prop where
  connectivity : failure.Connectivity → isRetryable (httpError client url failure) = true
  undecodable : failure.Undecodable → isRetryable (httpError client url failure) = false
  anyUrl : SameClass (httpError client url failure) (httpError client url' failure)

/-- **What the texts must carry for it**: a pattern in the URL that is named where the client has no
    connection or no answer in time, none where it cannot decode the body, and the same where the
    kind leaves it to the URL. -/
def UrlsFit (client : HttpClient Kind) (url url' : Url) : HttpFailure Kind → Prop
  | .client .undecodableBody =>
    ¬ client.Names .undecodableBody Marked url ∧ ¬ client.Names .undecodableBody Marked url'
  | .client (.other kind) =>
    (Marked (client.describe (.other kind)) ∨
      (client.Names (.other kind) Marked url ↔ client.Names (.other kind) Marked url')) ∧
    (Throttled (client.describe (.other kind)) ∨
      (client.Names (.other kind) Throttled url ↔ client.Names (.other kind) Throttled url'))
  | .client failure =>
    client.Names failure Marked url ∧ client.Names failure Marked url' ∧
      (client.Names failure Throttled url ↔ client.Names failure Throttled url')
  | .malformed _ _ | .status _ _ => True

section Client

variable (client : HttpClient Kind) (failure : ClientFailure Kind) (url url' : Url)

/-- The class of a client failure. -/
theorem clientError_class :
    (isRetryable (httpError client url (.client failure)) = true ↔
      Marked (client.describe failure) ∨ client.Names failure Marked url) ∧
    (isRateLimit (httpError client url (.client failure)) = true ↔
      Throttled (client.describe failure) ∨ client.Names failure Throttled url) :=
  ⟨(isRetryable_customStr _).trans (marked_text_iff client failure url).1,
    (isRateLimit_customStr _).trans (marked_text_iff client failure url).2⟩

/-- Two URLs and one kind. -/
theorem sameClass_clientError_iff :
    SameClass (httpError client url (.client failure)) (httpError client url' (.client failure)) ↔
      (Marked (client.describe failure) ∨
        (client.Names failure Marked url ↔ client.Names failure Marked url')) ∧
      (Throttled (client.describe failure) ∨
        (client.Names failure Throttled url ↔ client.Names failure Throttled url')) := by
  have h := clientError_class client failure url
  have h' := clientError_class client failure url'
  have hside : ∀ a b c : Prop, (a ∨ b ↔ a ∨ c) ↔ a ∨ (b ↔ c) := fun a b c => by
    by_cases ha : a <;> simp [ha]
  refine and_congr (Bool.eq_iff_iff.trans ?_) (Bool.eq_iff_iff.trans ?_)
  · rw [h.1, h'.1, hside]
  · rw [h.2, h'.2, hside]

/-- A client failure with a documented text: the URLs decide. -/
theorem classifiedByKind_iff (hkind : client.describe failure ∈ kindTexts) :
    ClassifiedByKind client (.client failure) url url' ↔
      (failure.Connectivity → client.Names failure Marked url) ∧
        ((HttpFailure.client failure).Undecodable → ¬ client.Names failure Marked url) ∧
        (client.Names failure Marked url ↔ client.Names failure Marked url') ∧
        (client.Names failure Throttled url ↔ client.Names failure Throttled url') := by
  have hnot := not_marked_of_kindTexts hkind
  have hretryable : isRetryable (httpError client url (.client failure)) = true ↔
      client.Names failure Marked url := by
    rw [(clientError_class client failure url).1, or_iff_right hnot]
  have hsame : SameClass (httpError client url (.client failure))
      (httpError client url' (.client failure)) ↔
      (client.Names failure Marked url ↔ client.Names failure Marked url') ∧
        (client.Names failure Throttled url ↔ client.Names failure Throttled url') := by
    rw [sameClass_clientError_iff, or_iff_right hnot,
      or_iff_right fun h => hnot (marked_of_throttled h)]
  rw [← hsame, ← hretryable, Bool.not_eq_true]
  exact ⟨fun h => ⟨h.connectivity, h.undecodable, h.anyUrl⟩, fun h => ⟨h.1, h.2.1, h.2.2⟩⟩

/-- A failure to reach the endpoint. -/
theorem classifiedByKind_reached_iff (hkind : client.describe failure ∈ kindTexts)
    (hreached : failure.Connectivity) (hdecoded : ¬ (HttpFailure.client failure).Undecodable) :
    ClassifiedByKind client (.client failure) url url' ↔
      client.Names failure Marked url ∧ client.Names failure Marked url' ∧
        (client.Names failure Throttled url ↔ client.Names failure Throttled url') := by
  rw [classifiedByKind_iff client failure url url' hkind]
  constructor
  · intro h
    obtain ⟨hmarked, _, hsame, hthrottled⟩ := h
    exact ⟨hmarked hreached, hsame.mp (hmarked hreached), hthrottled⟩
  · intro h
    obtain ⟨hmarked, hmarked', hthrottled⟩ := h
    exact ⟨fun _ => hmarked, fun h => absurd h hdecoded, iff_of_true hmarked hmarked', hthrottled⟩

end Client

/-- **THE KIND DECIDES THE CLASS** of a failure, whichever the URLs, if and only if the URLs that
    the client names carry what the text of the kind lacks; and every rate limit is retryable. -/
theorem classified_by_kind_iff {client : HttpClient Kind} (hclient : DescribesKinds client)
    (failure : HttpFailure Kind) (url url' : Url) :
    (ClassifiedByKind client failure url url' ↔ UrlsFit client url url' failure) ∧
      ∀ err, isRateLimit err = true → isRetryable err = true := by
  refine ⟨?_, retryable_of_rateLimit⟩
  cases failure with
  | client failure =>
    cases failure with
    | connection =>
      exact classifiedByKind_reached_iff client .connection url url'
        (hclient.connectivity .connection trivial) trivial id
    | timeout phase =>
      exact classifiedByKind_reached_iff client (.timeout phase) url url'
        (hclient.connectivity (.timeout phase) trivial) trivial id
    | undecodableBody =>
      rw [classifiedByKind_iff client .undecodableBody url url' hclient.undecodableBody]
      constructor
      · intro h
        have hnot := h.2.1 trivial
        exact ⟨hnot, fun hmarked => hnot (h.2.2.1.mpr hmarked)⟩
      · intro h
        obtain ⟨hnot, hnot'⟩ := h
        exact ⟨False.elim, fun _ => hnot, iff_of_false hnot hnot',
          iff_of_false (fun h => hnot ⟨h.1, marked_of_throttled h.2⟩)
            fun h => hnot' ⟨h.1, marked_of_throttled h.2⟩⟩
    | other kind =>
      have hsame := sameClass_clientError_iff client (.other kind) url url'
      exact ⟨fun h => hsame.mp h.anyUrl, fun h => ⟨False.elim, False.elim, hsame.mpr h⟩⟩
  | malformed err text => exact iff_of_true ⟨False.elim, fun _ => rfl, rfl, rfl⟩ trivial
  | status status body => exact iff_of_true ⟨False.elim, False.elim, rfl, rfl⟩ trivial

end Failures

/-! ## 4. A refused connection -/

/-- The other kinds of the client's errors. -/
inductive OtherKind where
  | builder
  | redirect
  | upgrade
  deriving DecidableEq

/-- A client that names the URL of a request it has not brought to an answer. -/
def sendingClient : HttpClient OtherKind where
  describe
    | .connection | .timeout .sending => "error sending request"
    | .timeout .reading => "request or response body error"
    | .undecodableBody => "error decoding response body"
    | .other .builder => "builder error"
    | .other .redirect => "error following redirect"
    | .other .upgrade => "error upgrading connection"
  namesUrl
    | .connection | .timeout .sending | .other .redirect => true
    | _ => false

theorem sendingClient_ok : DescribesKinds sendingClient where
  connectivity failure h := by
    match failure, h with
    | .connection, _ => decide
    | .timeout .sending, _ => decide
    | .timeout .reading, _ => decide
  undecodableBody := by decide

def localUrl : Url := ⟨some "localhost", "http://localhost:8545/"⟩

/-- **A refused connection is not retryable**: its text, "error sending request for url
    (http://localhost:8545/)", carries no pattern. -/
theorem refused_connection_final :
    ¬ ∀ client : HttpClient OtherKind, DescribesKinds client →
      ∀ failure url url', ClassifiedByKind client failure url url' := by
  intro h
  have hclass := h sendingClient sendingClient_ok (.client .connection) localUrl localUrl
  exact absurd (hclass.connectivity trivial) (by decide)

/-- Over URLs that hold the word, a connection failure is classified by its kind. -/
theorem classified_connection : ClassifiedByKind sendingClient (.client .connection)
    ⟨some "one.com", "https://one.com/connection/"⟩
    ⟨some "two.com", "https://two.com/connection/"⟩ :=
  (classified_by_kind_iff sendingClient_ok (.client .connection) _ _).1.mpr
    (by unfold UrlsFit HttpClient.Names Marked Throttled; decide)

/-- A timeout while the body is read is final at every URL: its text names none. -/
example (url : Url) :
    isRetryable (httpError sendingClient url (.client (.timeout .reading))) = false := by
  change isRetryable (customStr "request or response body error") = false
  decide

/-! ## 5. What a call makes of it -/

/-- **A failed connection ends the call** where the client names no URL that carries a pattern: no
    other endpoint is tried after it. -/
theorem client_failure_ends_call {Kind : Type} {client : HttpClient Kind}
    (hclient : DescribesKinds client) {wire : RequestPacket → Option Nat}
    {t : LoadBalancedTransport} {req req' : RequestPacket} {tr₁ tr₂ : Trace CallSig} {idx : Nat}
    {url : Url} {q : Program CallSig RpcResult} {failure : ClientFailure Kind}
    (hfailure : failure.Connectivity) (hurl : ¬ client.Names failure Marked url)
    (hs : Steps (call wire t req) (tr₁ ++ (⟨.send idx req',
      .error (httpError client url (.client failure))⟩ : Event CallSig) :: tr₂) q) :
    innerCalls tr₂ = [] := by
  have hfinal : FinalReply (.error (httpError client url (.client failure))) := by
    have hclass : isRetryable (httpError client url (.client failure)) = false := by
      rw [← Bool.not_eq_true, (clientError_class client failure url).1]
      exact fun h => h.elim (not_marked_of_kindTexts (hclient.connectivity failure hfailure)) hurl
    exact hclass
  have hlast := final_only_last hs
  unfold innerCalls at hlast ⊢
  rw [List.filterMap_append, List.filterMap_cons] at hlast
  dsimp only at hlast
  by_contra hmore
  rw [List.dropLast_append_of_ne_nil (List.cons_ne_nil _ _),
    List.dropLast_cons_of_ne_nil hmore] at hlast
  exact hlast _ (List.mem_append_right _ List.mem_cons_self) hfinal

end TransportBalancer
