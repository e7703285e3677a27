import XiaomiProxy.Handlers.Completions
import XiaomiProxy.Handlers.Traffic
import XiaomiProxy.Proxy.DownstreamHeaders
import XiaomiProxy.Proxy.RetryBudget

/-!
# The proxy routes

The five routes of `router.rs` that are forwarded, and what a request to one of them
becomes on the way to the provider.

A handler gives one request to one of the forwarders (`forwarded`), and does nothing
else with them (`handle_retried`, `handle_streamed`).  The forwarder sends it, made
anew for the key of each attempt (`sends`).  The client it sends with was built with the
default policy for redirects, and so a send that is answered with a redirect is followed
by further requests; `issued` lists all that leaves for the provider.

`faithful_iff` says for which client requests all of it is as the client sent it: all
but those to `/v1/models`, which are listed with `GET` and forwarded with `POST`, as long
as no redirect leads to another request.
-/

namespace XiaomiProxy

namespace Handlers

/-- `list_models`. -/
def listModels (env : Env) (headers : HeaderMap) : Handled :=
  .andThen (env.forwardRequest
    { protocol := .openAI, path := "/models", headers, body := [] })
    fun (respBody, status, _) =>
  { spawned := none, result := some (.ok (jsonReply status respBody)) }

end Handlers

/-- A route that is forwarded. -/
inductive ProxyRoute where
  | model (route : ModelRoute)
  | listModels
  deriving DecidableEq, Repr

/-- The requests a call sends, in order: its events, with the requests its keys go
into. -/
def Forwarder.sendsBy (config : Config) (request : ClientRequest)
    (events : List Retry.Event) : List DownstreamRequest :=
  events.filterMap fun
    | .requested key => downstreamRequest config request key
    | _ => none

/-- What a call of a forwarder does. -/
def Mode.events (downstream : Forwarder.Downstream) (config : Config) (keyPool : KeyPool)
    (request : Forwarder.ClientRequest) : Mode → List Retry.Event
  | .retried => (Forwarder.forwardRequest downstream config keyPool request).events
  | .streamed => (Forwarder.forwardStreaming downstream config keyPool request).events

/-- The redirects a client follows by itself: the requests that it makes, one after the
other, when the `n`-th send of a call is answered with a redirect.  There are none for a
send that is not. -/
abbrev Redirects := ℕ → DownstreamRequest → List DownstreamRequest

namespace ProxyRoute

/-- The path of a route. -/
def clientPath : ProxyRoute → String
  | .model .chatCompletions => "/v1/chat/completions"
  | .model .completions => "/v1/completions"
  | .model .embeddings => "/v1/embeddings"
  | .model .messages => "/anthropic/v1/messages"
  | .listModels => "/v1/models"

/-- The methods of a route.  A `get` route answers `HEAD` as well. -/
def methods : ProxyRoute → List String
  | .model _ => ["POST"]
  | .listModels => ["GET", "HEAD"]

/-- The handler of a route.  Only `list_models` takes no body. -/
def handle (env : Handlers.Env) (clientKey : ClientKey) (headers : HeaderMap)
    (body : Json) : ProxyRoute → Handled
  | .model route => route.handle env clientKey headers body
  | .listModels => Handlers.listModels env headers

/-! ## What is forwarded -/

def protocol : ProxyRoute → Protocol
  | .model route => route.protocol
  | .listModels => .openAI

/-- Where the routes of a protocol are mounted. -/
def mountPath : Protocol → String
  | .openAI => "/v1"
  | .anthropic => "/anthropic"

/-- The bytes of the body a client sent, once it was parsed. -/
def clientBody (serde : SerdeJson) (body : Json) : ProxyRoute → Except String Bytes
  | .model _ => serde.toVec body
  | .listModels => .ok []

/-- The request a handler gives to a forwarder, and to which: none, if its body cannot
be written. -/
def forwarded (serde : SerdeJson) (headers : HeaderMap) (body : Json) :
    ProxyRoute → Option (Mode × Forwarder.ClientRequest)
  | .model route =>
      match serde.toVec body with
      | .error _ => none
      | .ok bytes => some (if route.streams body then .streamed else .retried,
          { protocol := route.protocol, path := route.path, headers, body := bytes })
  | .listModels =>
      some (.retried, { protocol := .openAI, path := "/models", headers, body := [] })

/-- The requests the forwarder sends. -/
def sends (serde : SerdeJson) (downstream : Forwarder.Downstream) (state : AppState)
    (headers : HeaderMap) (body : Json) (route : ProxyRoute) : List DownstreamRequest :=
  match route.forwarded serde headers body with
  | none => []
  | some (mode, request) => Forwarder.sendsBy state.config request
      (mode.events downstream state.config state.keyPool request)

section Forwarded

variable {serde : SerdeJson} {headers : HeaderMap} {body : Json} {route : ProxyRoute}
  {request : Forwarder.ClientRequest}

/-- **A handler that does not stream gives its request to `forward_request`**, once, and
goes on with what that returns. -/
theorem handle_retried (clientKey : ClientKey) (elapsed : Duration)
    (h : route.forwarded serde headers body = some (.retried, request)) :
    ∃ next, ∀ forwardRequest forwardStreaming,
      route.handle { serde, forwardRequest, forwardStreaming, elapsed } clientKey headers body
        = .andThen (forwardRequest request) next := by
  cases route with
  | listModels =>
      cases h
      exact ⟨_, fun _ _ => rfl⟩
  | model route =>
      simp only [forwarded] at h
      cases hbytes : serde.toVec body with
      | error e =>
          rw [hbytes] at h
          cases h
      | ok bytes =>
          rw [hbytes] at h
          obtain ⟨hmode, rfl⟩ := Prod.mk.inj (Option.some.inj h)
          cases hstream : route.streams body with
          | true =>
              rw [hstream] at hmode
              cases hmode
          | false =>
              cases route <;> simp only [ModelRoute.streams] at hstream <;>
                simp only [handle, ModelRoute.handle, Handlers.chatCompletions,
                  Handlers.completions, Handlers.embeddings, Handlers.messages,
                  Handlers.modelCall, Handlers.plainCall, hbytes, hstream,
                  Except.mapError, Handled.andThen, Bool.false_eq_true, if_false] <;>
                exact ⟨_, fun _ _ => rfl⟩

/-- **A handler that streams gives its request to `forward_streaming`.** -/
theorem handle_streamed (clientKey : ClientKey) (elapsed : Duration)
    (h : route.forwarded serde headers body = some (.streamed, request)) :
    ∃ next, ∀ forwardRequest forwardStreaming,
      route.handle { serde, forwardRequest, forwardStreaming, elapsed } clientKey headers body
        = .andThen (forwardStreaming request) next := by
  cases route with
  | listModels => cases h
  | model route =>
      simp only [forwarded] at h
      cases hbytes : serde.toVec body with
      | error e =>
          rw [hbytes] at h
          cases h
      | ok bytes =>
          rw [hbytes] at h
          obtain ⟨hmode, rfl⟩ := Prod.mk.inj (Option.some.inj h)
          cases hstream : route.streams body with
          | false =>
              rw [hstream] at hmode
              cases hmode
          | true =>
              cases route <;> simp only [ModelRoute.streams] at hstream <;>
                first
                | cases hstream
                | simp only [handle, ModelRoute.handle, Handlers.chatCompletions,
                    Handlers.messages, Handlers.modelCall, hbytes, hstream,
                    Except.mapError, Handled.andThen, if_true]
                  exact ⟨_, fun _ _ => rfl⟩

end Forwarded

/-- The requests that leave for the provider: those that are sent, and those that follow
their redirects. -/
def issued (redirects : Redirects) (sends : List DownstreamRequest) :
    List DownstreamRequest :=
  sends.zipIdx.flatMap fun (req, n) => req :: redirects n req

/-! ## What leaves for the provider -/

/-- Two requests that differ at most in the downstream credential. -/
structure AlikeButForKey (req req' : DownstreamRequest) : Prop where
  method : req.method = req'.method
  url : req.url = req'.url
  body : req.body = req'.body
  headers : ∀ name, name ≠ AUTHORIZATION → name ≠ "x-api-key" →
    req.headers.getAll name = req'.headers.getAll name

/-- The redirects of these sends lead to the same requests again, but for the
credential. -/
def RedirectsAlike (redirects : Redirects) (sends : List DownstreamRequest) : Prop :=
  ∀ n req, sends[n]? = some req → ∀ req' ∈ redirects n req, AlikeButForKey req req'

/-- What is issued for a client request is as the client sent it, each time. -/
structure Faithful (config : Config) (serde : SerdeJson) (route : ProxyRoute)
    (method : String) (body : Json) (issued : List DownstreamRequest) : Prop where
  method_eq : ∀ req ∈ issued, req.method = method
  url : ∀ req ∈ issued, ∃ rest, route.clientPath = mountPath route.protocol ++ rest ∧
    req.url = route.protocol.baseUrl config ++ rest
  body_eq : ∀ req ∈ issued, route.clientBody serde body = .ok req.body
  /-- What is sent for the body of the client is read as that body, if `serde_json` reads
  what it wrote of it. -/
  parsed : route ≠ .listModels → serde.ReadsBack body → ∀ req ∈ issued,
    serde.fromSlice req.body = .ok body
  alike : ∀ req ∈ issued, ∀ req' ∈ issued, AlikeButForKey req req'

section Issued

variable {serde : SerdeJson} {downstream : Forwarder.Downstream} {state : AppState}
  {headers : HeaderMap} {body : Json} {route : ProxyRoute} {mode : Mode}
  {config : Config} {request : Forwarder.ClientRequest} {req req' : DownstreamRequest}
  {key key' : String}

/-- What a request is made of. -/
theorem downstreamRequest_eq
    (h : Forwarder.downstreamRequest config request key = some req) :
    req.method = "POST" ∧ req.url = request.protocol.baseUrl config ++ request.path ∧
      req.body = request.body ∧
      Forwarder.buildDownstreamHeaders request.headers key request.protocol
        = some req.headers := by
  simp only [Forwarder.downstreamRequest] at h
  split at h
  · cases h
  · rename_i sent hsent
    cases h
    exact ⟨rfl, rfl, rfl, hsent⟩

/-- The requests of two attempts are alike but for the key. -/
theorem alikeButForKey (h : Forwarder.downstreamRequest config request key = some req)
    (h' : Forwarder.downstreamRequest config request key' = some req') :
    AlikeButForKey req req' := by
  obtain ⟨hmethod, hurl, hbody, hheaders⟩ := downstreamRequest_eq h
  obtain ⟨hmethod', hurl', hbody', hheaders'⟩ := downstreamRequest_eq h'
  refine ⟨hmethod.trans hmethod'.symm, hurl.trans hurl'.symm, hbody.trans hbody'.symm, ?_⟩
  intro name hauth hkey
  have hsent := Forwarder.headersOf_build hheaders
  have hsent' := Forwarder.headersOf_build hheaders'
  by_cases hname : name ∈ Forwarder.replacedNames
  · simp only [Forwarder.replacedNames, List.mem_cons, List.not_mem_nil, or_false] at hname
    rcases hname with rfl | rfl | rfl | rfl
    · exact absurd rfl hauth
    · exact absurd rfl hkey
    · rw [hsent.host, hsent'.host]
    · rw [hsent.contentLength, hsent'.contentLength]
  · rw [hsent.others name hname, hsent'.others name hname]

theorem mem_sendsBy {events : List Retry.Event}
    (h : req ∈ Forwarder.sendsBy config request events) :
    ∃ key, Forwarder.downstreamRequest config request key = some req := by
  obtain ⟨event, -, hevent⟩ := List.mem_filterMap.mp h
  split at hevent
  · exact ⟨_, hevent⟩
  · cases hevent

theorem clientPath_model (route : ModelRoute) :
    (model route).clientPath = mountPath route.protocol ++ route.path := by
  cases route <;> decide

/-- The forwarded request has the path, the protocol and the body of its route. -/
theorem forwarded_eq (h : route.forwarded serde headers body = some (mode, request)) :
    request.protocol = route.protocol ∧
      route.clientPath = mountPath route.protocol ++ request.path ∧
      route.clientBody serde body = .ok request.body ∧ request.headers = headers := by
  cases route with
  | listModels =>
      cases h
      exact ⟨rfl, rfl, rfl, rfl⟩
  | model route =>
      simp only [forwarded] at h
      cases hbytes : serde.toVec body with
      | error e =>
          rw [hbytes] at h
          cases h
      | ok bytes =>
          rw [hbytes] at h
          obtain ⟨-, rfl⟩ := Prod.mk.inj (Option.some.inj h)
          exact ⟨rfl, clientPath_model route, hbytes, rfl⟩

/-- What is sent is made of the forwarded request. -/
theorem mem_sends (h : req ∈ route.sends serde downstream state headers body) :
    ∃ mode request key, route.forwarded serde headers body = some (mode, request) ∧
      Forwarder.downstreamRequest state.config request key = some req := by
  unfold sends at h
  split at h
  · cases h
  · rename_i mode request hforwarded
    obtain ⟨key, hkey⟩ := mem_sendsBy h
    exact ⟨mode, request, key, hforwarded, hkey⟩

theorem AlikeButForKey.symm (h : AlikeButForKey req req') : AlikeButForKey req' req :=
  ⟨h.method.symm, h.url.symm, h.body.symm, fun name hauth hkey =>
    (h.headers name hauth hkey).symm⟩

theorem AlikeButForKey.trans {req'' : DownstreamRequest} (h : AlikeButForKey req req')
    (h' : AlikeButForKey req' req'') : AlikeButForKey req req'' :=
  ⟨h.method.trans h'.method, h.url.trans h'.url, h.body.trans h'.body,
    fun name hauth hkey => (h.headers name hauth hkey).trans (h'.headers name hauth hkey)⟩

theorem AlikeButForKey.refl (req : DownstreamRequest) : AlikeButForKey req req :=
  ⟨rfl, rfl, rfl, fun _ _ _ => rfl⟩

/-- All that is sent is a `POST`, and otherwise as the client sent it. -/
theorem faithful_sends (serde : SerdeJson) (downstream : Forwarder.Downstream)
    (state : AppState) (headers : HeaderMap) (body : Json) (route : ProxyRoute) :
    Faithful state.config serde route "POST" body
      (route.sends serde downstream state headers body) := by
  refine ⟨fun req h => ?_, fun req h => ?_, fun req h => ?_, fun hroute hserde req h => ?_,
    fun req h req' h' => ?_⟩
  · obtain ⟨mode, request, key, -, hreq⟩ := mem_sends h
    exact (downstreamRequest_eq hreq).1
  · obtain ⟨mode, request, key, hforwarded, hreq⟩ := mem_sends h
    obtain ⟨hprotocol, hpath, -, -⟩ := forwarded_eq hforwarded
    refine ⟨request.path, hpath, ?_⟩
    rw [(downstreamRequest_eq hreq).2.1, hprotocol]
  · obtain ⟨mode, request, key, hforwarded, hreq⟩ := mem_sends h
    obtain ⟨-, -, hbody, -⟩ := forwarded_eq hforwarded
    rw [(downstreamRequest_eq hreq).2.2.1, hbody]
  · obtain ⟨mode, request, key, hforwarded, hreq⟩ := mem_sends h
    obtain ⟨-, -, hbody, -⟩ := forwarded_eq hforwarded
    rw [(downstreamRequest_eq hreq).2.2.1]
    cases route with
    | listModels => exact absurd rfl hroute
    | model route => exact hserde _ hbody
  · obtain ⟨mode, request, key, hforwarded, hreq⟩ := mem_sends h
    obtain ⟨mode', request', key', hforwarded', hreq'⟩ := mem_sends h'
    obtain ⟨-, rfl⟩ := Prod.mk.inj (Option.some.inj (hforwarded.symm.trans hforwarded'))
    exact alikeButForKey hreq hreq'

/-- What is issued is sent, or follows a redirect of what is sent. -/
theorem mem_issued {redirects : Redirects} {sends : List DownstreamRequest} :
    req' ∈ issued redirects sends ↔
      ∃ n req, sends[n]? = some req ∧ (req' = req ∨ req' ∈ redirects n req) := by
  rw [issued, List.mem_flatMap]
  constructor
  · rintro ⟨⟨req, n⟩, hmem, h⟩
    exact ⟨n, req, List.mem_zipIdx_iff_getElem?.mp hmem, List.mem_cons.mp h⟩
  · rintro ⟨n, req, hreq, h⟩
    exact ⟨(req, n), List.mem_zipIdx_iff_getElem?.mpr hreq, List.mem_cons.mpr h⟩

theorem mem_issued_of_mem (redirects : Redirects) {sends : List DownstreamRequest}
    (h : req ∈ sends) : req ∈ issued redirects sends := by
  obtain ⟨n, hn⟩ := List.mem_iff_getElem?.mp h
  exact mem_issued.mpr ⟨n, req, hn, Or.inl rfl⟩

/-- **All that is issued is as the client sent it exactly if all that is sent is, and no
redirect leads to another request.** -/
theorem faithful_issued_iff {method : String} (redirects : Redirects)
    (sends : List DownstreamRequest) :
    Faithful config serde route method body (issued redirects sends) ↔
      Faithful config serde route method body sends ∧ RedirectsAlike redirects sends := by
  constructor
  · intro h
    have hmem : ∀ req ∈ sends, req ∈ issued redirects sends :=
      fun req => mem_issued_of_mem redirects
    refine ⟨⟨fun req hreq => h.method_eq req (hmem req hreq),
      fun req hreq => h.url req (hmem req hreq), fun req hreq => h.body_eq req (hmem req hreq),
      fun hroute hserde req hreq => h.parsed hroute hserde req (hmem req hreq),
      fun req hreq req' hreq' => h.alike req (hmem req hreq) req' (hmem req' hreq')⟩,
      fun n req hreq req' hreq' => ?_⟩
    exact h.alike req (hmem req (List.mem_of_getElem? hreq)) req'
      (mem_issued.mpr ⟨n, req, hreq, Or.inr hreq'⟩)
  · rintro ⟨h, halike⟩
    -- what is issued is like something that is sent
    have hlike : ∀ req' ∈ issued redirects sends, ∃ req ∈ sends, AlikeButForKey req req' := by
      intro req' hreq'
      obtain ⟨n, req, hreq, rfl | hfollows⟩ := mem_issued.mp hreq'
      · exact ⟨req', List.mem_of_getElem? hreq, AlikeButForKey.refl req'⟩
      · exact ⟨req, List.mem_of_getElem? hreq, halike n req hreq req' hfollows⟩
    refine ⟨fun req' hreq' => ?_, fun req' hreq' => ?_, fun req' hreq' => ?_,
      fun hroute hserde req' hreq' => ?_, fun req' hreq' req'' hreq'' => ?_⟩ <;>
      obtain ⟨req, hreq, hreqlike⟩ := hlike req' hreq'
    · exact hreqlike.method ▸ h.method_eq req hreq
    · exact hreqlike.url ▸ h.url req hreq
    · exact hreqlike.body ▸ h.body_eq req hreq
    · exact hreqlike.body ▸ h.parsed hroute hserde req hreq
    · obtain ⟨req₂, hreq₂, hreqlike₂⟩ := hlike req'' hreq''
      exact hreqlike.symm.trans ((h.alike req hreq req₂ hreq₂).trans hreqlike₂)

/-- A listing of the models is sent if the key that is selected can be attached. -/
theorem exists_sends_listModels (serde : SerdeJson) (downstream : Forwarder.Downstream)
    (headers : HeaderMap) (body : Json) {k : Cell PooledKey}
    (hselect : state.keyPool.selectKey = .ok k) (hclean : HeaderValue.Clean k.val.key) :
    ∃ req, req ∈ ProxyRoute.listModels.sends serde downstream state headers body := by
  obtain ⟨req, hreq⟩ := Option.isSome_iff_exists.mp
    ((Forwarder.downstreamRequest_isSome_iff state.config
      { protocol := .openAI, path := "/models", headers, body := [] }).mpr hclean)
  rcases state.keyPool.acquireKey_cases with ⟨e, herror, -⟩ | ⟨l, index, hl, -, -, hacquire⟩
  · rw [hselect] at herror
    cases herror
  · obtain rfl : k = l := Except.ok.inj (hselect.symm.trans hl)
    obtain ⟨rest, hrequests, -⟩ := Retry.requests_loop_of_acquired
      (Forwarder.retryEnv downstream state.config
        { protocol := .openAI, path := "/models", headers, body := [] })
      state.config.downstream.maxRetries state.config.downstream.retryBaseMs
      state.config.downstream.maxRetries.toNat 0 none hacquire
    have hmem : k.val.key ∈ (Retry.withRetry (Forwarder.retryEnv downstream state.config
        { protocol := .openAI, path := "/models", headers, body := [] })
        state.config.downstream.maxRetries state.config.downstream.retryBaseMs
        state.keyPool).requests := by
      rw [Retry.withRetry, hrequests]
      exact List.mem_cons_self
    obtain ⟨event, hevent, hkey⟩ := List.mem_filterMap.mp hmem
    refine ⟨req, List.mem_filterMap.mpr ⟨event, hevent, ?_⟩⟩
    split at hkey
    · obtain rfl := Option.some.inj hkey
      exact hreq
    · cases hkey

/-- Without such a key, none is. -/
theorem sends_listModels_eq_nil (serde : SerdeJson) (downstream : Forwarder.Downstream)
    (headers : HeaderMap) (body : Json)
    (hnone : ∀ k, state.keyPool.selectKey = .ok k → ¬ HeaderValue.Clean k.val.key) :
    ProxyRoute.listModels.sends serde downstream state headers body = [] := by
  show Forwarder.sendsBy state.config _ (Retry.loop _ _ _ _ 0 none state.keyPool).events = []
  rcases state.keyPool.acquireKey_cases with
    ⟨e, -, hacquire⟩ | ⟨k, index, hselect, -, -, hacquire⟩
  · rw [Retry.loop_of_refused hacquire]
    rfl
  · have hbuild : Forwarder.downstreamRequest state.config
        { protocol := .openAI, path := "/models", headers, body := [] } k.val.key = none := by
      rw [← Option.not_isSome_iff_eq_none, Forwarder.downstreamRequest_isSome_iff]
      exact hnone k hselect
    -- the first request cannot be built, and ends the call
    simp only [Retry.loop, hacquire, Forwarder.retryEnv, hbuild, Option.map_none,
      Retry.Run.after, Forwarder.sendsBy]
    simp [hbuild]

end Issued

/-- **What is issued for a client request is as the client sent it exactly if it is not a
listing of the models**, or no request is sent, because no key can be acquired or the
key that is cannot be attached; **and no redirect leads to another request.** -/
theorem faithful_iff (serde : SerdeJson) (downstream : Forwarder.Downstream)
    (redirects : Redirects) (state : AppState) (headers : HeaderMap) (body : Json)
    (route : ProxyRoute) {method : String} (hmethod : method ∈ route.methods) :
    Faithful state.config serde route method body
        (issued redirects (route.sends serde downstream state headers body)) ↔
      (route ≠ .listModels ∨
        ∀ k, state.keyPool.selectKey = .ok k → ¬ HeaderValue.Clean k.val.key) ∧
      RedirectsAlike redirects (route.sends serde downstream state headers body) := by
  have hpost := faithful_sends serde downstream state headers body route
  rw [faithful_issued_iff, and_congr_left_iff]
  intro _
  cases route with
  | model route =>
      obtain rfl := List.mem_singleton.mp hmethod
      exact iff_of_true hpost (Or.inl nofun)
  | listModels =>
      have hne : method ≠ "POST" := by
        rintro rfl
        revert hmethod
        decide
      simp only [ne_eq, not_true_eq_false, false_or]
      constructor
      · intro h k hselect hclean
        obtain ⟨req, hreq⟩ := exists_sends_listModels serde downstream headers body
          hselect hclean
        exact hne ((h.method_eq req hreq).symm.trans (hpost.method_eq req hreq))
      · intro hnone
        rw [sends_listModels_eq_nil serde downstream headers body hnone]
        exact ⟨nofun, nofun, nofun, nofun, nofun⟩

/-- What `serde_json` makes of an empty object. -/
def emptyObject : SerdeJson where
  toVec _ := .ok (HeaderValue.ofText "\x7b\x7d")
  fromSlice _ := .ok (.object [])

/-- The state of a program with one downstream key. -/
def oneKey : AppState where
  config := Config.withoutFile
  keyPool := KeyPool.new [⟨"tp-1", 1⟩]
  rateLimiter := RateLimiter.new 60 60
  db := .empty
  clientKeys := {"sk-1"}

/-- The chat completions a provider is sent that always answers with one status. -/
def chatSends (status : StatusCode) : List DownstreamRequest :=
  (ProxyRoute.model .chatCompletions).sends emptyObject
    (Forwarder.answering (.ok (Response.ofStatus status))) oneKey [] (.object [])

/-- A provider that is unavailable is sent a chat completion three times, each time as the
client sent it, until the only key is out of rotation. -/
theorem faithful_chatCompletions :
    (issued (fun _ _ => []) (chatSends ⟨503, by decide⟩)).length = 3 ∧
      emptyObject.ReadsBack (.object []) ∧
      Faithful oneKey.config emptyObject (.model .chatCompletions) "POST" (.object [])
        (issued (fun _ _ => []) (chatSends ⟨503, by decide⟩)) :=
  ⟨by decide +kernel, fun _ _ => rfl, (faithful_iff emptyObject
    (Forwarder.answering (.ok (Response.ofStatus ⟨503, by decide⟩))) (fun _ _ => []) oneKey
    [] (.object []) (.model .chatCompletions)
    (List.mem_singleton_self "POST")).mpr ⟨Or.inl nofun, fun _ _ _ _ => nofun⟩⟩

/-- The listings of the models a provider is sent that answers at once. -/
def listModelsSends : List DownstreamRequest :=
  ProxyRoute.listModels.sends emptyObject
    (Forwarder.answering (.ok (Response.ofStatus .OK))) oneKey [] .null

/-- A client that lists the models with `GET` has them listed with `POST`. -/
theorem not_faithful_listModels :
    "GET" ∈ ProxyRoute.listModels.methods ∧
      (issued (fun _ _ => []) listModelsSends).map DownstreamRequest.method = ["POST"] ∧
      ¬ Faithful oneKey.config emptyObject .listModels "GET" .null
        (issued (fun _ _ => []) listModelsSends) := by
  have hposts : (issued (fun _ _ => []) listModelsSends).map DownstreamRequest.method
      = ["POST"] := by decide +kernel
  refine ⟨by decide, hposts, fun h => ?_⟩
  have hmem : "POST" ∈ (issued (fun _ _ => []) listModelsSends).map
      DownstreamRequest.method := by
    rw [hposts]
    exact List.mem_singleton_self _
  obtain ⟨req, hreq, hmethod⟩ := List.mem_map.mp hmem
  have hget := h.method_eq req hreq
  rw [hmethod] at hget
  revert hget
  decide

/-- A redirect that is followed with another method leads to another request. -/
theorem not_redirectsAlike_of_method {redirects : Redirects} {sends : List DownstreamRequest}
    {n : ℕ} {req req' : DownstreamRequest} (hreq : sends[n]? = some req)
    (hfollows : req' ∈ redirects n req) (hmethod : req'.method ≠ req.method) :
    ¬ RedirectsAlike redirects sends :=
  fun h => hmethod (h n req hreq req' hfollows).method.symm

/-- What becomes of a first send that is answered with `303`, and a path. -/
def seeOther (path : String) : Redirects
  | 0, req => [{ req with method := "GET", url := path, body := [] }]
  | _ + 1, _ => []

example (path : String) (req : DownstreamRequest) (rest : List DownstreamRequest)
    (hpost : req.method = "POST") : ¬ RedirectsAlike (seeOther path) (req :: rest) := by
  have hget : "GET" ≠ req.method := by
    rw [hpost]
    decide
  exact not_redirectsAlike_of_method (List.getElem?_cons_zero ..)
    (List.mem_singleton_self _) hget

end ProxyRoute

end XiaomiProxy
