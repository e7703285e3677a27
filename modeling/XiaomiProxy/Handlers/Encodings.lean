import XiaomiProxy.Handlers.ProxyRoutes
import XiaomiProxy.Handlers.Usage

/-!
# Content encodings

The body of a response on its way from the provider to the client, under the
`Content-Encoding` of each.

The client's `Accept-Encoding` goes out with its other headers (`acceptEncoding_sends`),
so the provider may answer in any coding the client knows.  `reqwest` decodes one of them,
gzip, and takes its header away (`WireResponse.received`); a body in another coding is
handed on as it came.

* A streamed response keeps its headers, and the client decodes what `reqwest` did not
  (`decoded_streamed`).
* Any other response gets new headers, none of which names a coding (`decoded_jsonReply`).
  Its body is taken for plain text, by the client and by the extraction of the usage.

`delivers_iff` says for which responses both get the payload.
-/

namespace XiaomiProxy

def CONTENT_ENCODING : HeaderName := "content-encoding"

/-- Content codings.  `decode` gives what a body under some `Content-Encoding` stands for,
if it can be decoded; a body under none stands for itself.  `text` is how bytes are read
as a text. -/
structure ContentCodings where
  decode : List HeaderValue → Bytes → Option Bytes
  text : Bytes → String
  identity : ∀ body, decode [] body = some body

/-- A response as the provider sends it. -/
structure WireResponse where
  status : StatusCode
  headers : HeaderMap
  body : Bytes

namespace WireResponse

variable (codings : ContentCodings) (wire : WireResponse)

/-- The values of its `Content-Encoding`. -/
def contentEncoding : List HeaderValue := wire.headers.getAll CONTENT_ENCODING

/-- What its body stands for. -/
def payload : Option Bytes := codings.decode wire.contentEncoding wire.body

/-- The one coding `reqwest` decodes.  It goes by the first value of the header. -/
def isGzip : Bool := wire.contentEncoding.head? = some (HeaderValue.ofText "gzip")

/-- What gzip alone makes of the body. -/
def gunzipped : Option Bytes := codings.decode [HeaderValue.ofText "gzip"] wire.body

/-- The payload is what gzip alone makes of the body. -/
def Gunzips : Prop := wire.gunzipped codings = wire.payload codings

/-- It is, if gzip is the only coding. -/
theorem gunzips_of_gzip (h : wire.contentEncoding = [HeaderValue.ofText "gzip"]) :
    wire.Gunzips codings := by
  rw [Gunzips, gunzipped, payload, h]

/-- The body is its own payload. -/
def Plain : Prop := wire.payload codings = some wire.body

/-- A body without a coding is plain. -/
theorem plain_of_unencoded (h : wire.contentEncoding = []) : wire.Plain codings := by
  rw [Plain, payload, h]
  exact codings.identity wire.body

/-- What `reqwest` makes of a response, with its `gzip` feature and no other.  If it decodes
the body, it removes all values of the header. -/
def received : Response :=
  if wire.isGzip then
    let bytes := match wire.gunzipped codings with
      | some payload => .ok payload
      | none => .error ⟨"error decoding response body"⟩
    { status := wire.status
      headers := (wire.headers.remove CONTENT_ENCODING).remove CONTENT_LENGTH
      bytes
      text := bytes.map codings.text }
  else
    { status := wire.status
      headers := wire.headers
      bytes := .ok wire.body
      text := .ok (codings.text wire.body) }

end WireResponse

/-- A provider: what it sends on the `n`-th request of a call, which may depend on all that
the request says.  The times of the reports and the draws are as in `Downstream`. -/
structure Provider where
  answer : ℕ → DownstreamRequest → Except ReqwestError WireResponse
  now : ℕ → Instant
  rng : ℕ → Retry.GenRange

namespace Provider

variable (provider : Provider) (codings : ContentCodings)

/-- The provider behind `reqwest`. -/
def downstream : Forwarder.Downstream where
  send n req := (provider.answer n req).map (WireResponse.received codings)
  now := provider.now
  rng := provider.rng

/-- What it sends on the last of some requests. -/
def lastAnswer (sends : List DownstreamRequest) : Option WireResponse :=
  sends.getLast?.bind fun req => (provider.answer (sends.length - 1) req).toOption

/-- A response that `reqwest` hands out is one that was sent. -/
theorem send_eq_ok_iff {n : ℕ} {req : DownstreamRequest} {resp : Response} :
    (provider.downstream codings).send n req = .ok resp ↔
      ∃ wire, provider.answer n req = .ok wire ∧ wire.received codings = resp := by
  cases hanswer : provider.answer n req <;> simp [downstream, hanswer, Except.map]

end Provider

namespace Reply

/-- The headers of a response. -/
def headers : Reply → HeaderMap
  | .whole _ headers _ => headers
  | .streaming response => response.headers

/-- The body of a response, if it does not break off. -/
def body : Reply → Option Bytes
  | .whole _ _ body => some body
  | .streaming response => response.body.toOption

/-- What a client makes of a response. -/
def decoded (codings : ContentCodings) (reply : Reply) : Option Bytes :=
  reply.body.bind (codings.decode (reply.headers.getAll CONTENT_ENCODING))

end Reply

/-- The response of a forwarder, as a reply. -/
inductive Relayed (env : Handlers.Env) (request : Forwarder.ClientRequest) :
    Mode → Reply → Prop
  | retried {respBody : Bytes} {status : StatusCode} {respHeaders : HeaderMap}
      (h : env.forwardRequest request = some (.ok (respBody, status, respHeaders))) :
      Relayed env request .retried (Handlers.jsonReply status respBody)
  | streamed {response : ClientResponse}
      (h : env.forwardStreaming request = some (.ok response)) :
      Relayed env request .streamed (.streaming response)

namespace ProxyRoute

/-- The calls that are streamed. -/
def streams (body : Json) : ProxyRoute → Bool
  | .model route => route.streams body
  | .listModels => false

/-- The calls that are recorded. -/
def records (body : Json) : ProxyRoute → Bool
  | .model route => route.records body
  | .listModels => false

/-- The bytes a call gives to the extraction of the usage: the body that was forwarded to
it, if it is a call that is recorded. -/
def extracted (env : Handlers.Env) (headers : HeaderMap) (body : Json)
    (route : ProxyRoute) : Option Bytes :=
  match route.forwarded env.serde headers body with
  | some (.retried, request) =>
      match env.forwardRequest request with
      | some (.ok (respBody, _, _)) => if route.records body then some respBody else none
      | _ => none
  | _ => none

section Handle

variable {env : Handlers.Env} {protocol : Protocol} {path : String} {clientKey : ClientKey}
  {headers : HeaderMap} {body : Json} {reply : Reply} {route : ProxyRoute}

theorem relayed_modelCall {usageOf : Bytes → Handlers.Usage}
    (h : (Handlers.modelCall env protocol path usageOf clientKey headers body).reply
      = some reply) :
    ∃ bytes, env.serde.toVec body = .ok bytes ∧
      Relayed env { protocol, path, headers, body := bytes }
        (if Handlers.isStreaming body then .streamed else .retried) reply := by
  obtain ⟨bytes, hbytes, h⟩ := Handled.reply_andThen h
  refine ⟨bytes, Handlers.toVec_of_step hbytes, ?_⟩
  cases hstream : Handlers.isStreaming body with
  | true =>
      rw [hstream, if_pos rfl] at h
      obtain ⟨response, hresponse, h⟩ := Handled.reply_andThen h
      obtain ⟨masked, -, h⟩ := Handled.reply_andThen h
      cases h
      exact .streamed hresponse
  | false =>
      rw [hstream, if_neg Bool.false_ne_true] at h
      obtain ⟨response, hresponse, h⟩ := Handled.reply_andThen h
      obtain ⟨masked, -, h⟩ := Handled.reply_andThen h
      cases h
      exact .retried hresponse

theorem relayed_plainCall (h : (Handlers.plainCall env path headers body).reply = some reply) :
    ∃ bytes, env.serde.toVec body = .ok bytes ∧
      Relayed env { protocol := .openAI, path, headers, body := bytes } .retried reply := by
  obtain ⟨bytes, hbytes, h⟩ := Handled.reply_andThen h
  obtain ⟨response, hresponse, h⟩ := Handled.reply_andThen h
  cases h
  exact ⟨bytes, Handlers.toVec_of_step hbytes, .retried hresponse⟩

/-- **A reply is the response of a forwarder** to the request of the route. -/
theorem relayed_handle (h : (route.handle env clientKey headers body).reply = some reply) :
    ∃ mode request, route.forwarded env.serde headers body = some (mode, request) ∧
      Relayed env request mode reply := by
  have hmodel : ∀ (r : ModelRoute), (∃ bytes, env.serde.toVec body = .ok bytes ∧
      Relayed env { protocol := r.protocol, path := r.path, headers, body := bytes }
        (if r.streams body then .streamed else .retried) reply) →
      ∃ mode request, (model r).forwarded env.serde headers body = some (mode, request) ∧
        Relayed env request mode reply := by
    rintro r ⟨bytes, hbytes, hrelayed⟩
    refine ⟨_, _, ?_, hrelayed⟩
    simp only [forwarded, hbytes]
  cases route with
  | listModels =>
      obtain ⟨response, hresponse, h⟩ := Handled.reply_andThen h
      cases h
      exact ⟨_, _, rfl, .retried hresponse⟩
  | model r =>
      cases r with
      | chatCompletions => exact hmodel .chatCompletions (relayed_modelCall h)
      | completions => exact hmodel .completions (relayed_plainCall h)
      | embeddings => exact hmodel .embeddings (relayed_plainCall h)
      | messages => exact hmodel .messages (relayed_modelCall h)

/-- **What a call records is the usage of the bytes it extracts it from.** -/
theorem usage_of_extracted {record : RecordRequest}
    (h : (route.handle env clientKey headers body).spawned = some record) :
    ∃ respBody, route.extracted env headers body = some respBody ∧
      record.usage = Handlers.usageOf env.serde route.protocol respBody := by
  have hplain : ∀ path, (Handlers.plainCall env path headers body).spawned ≠ some record := by
    intro path h
    obtain ⟨bytes, -, h⟩ := Handled.spawned_andThen h
    obtain ⟨response, -, h⟩ := Handled.spawned_andThen h
    cases h
  have hmodel : ∀ r : ModelRoute, r.streams body = Handlers.isStreaming body →
      r.records body = !Handlers.isStreaming body →
      (Handlers.modelCall env r.protocol r.path (Handlers.usageOf env.serde r.protocol)
        clientKey headers body).spawned = some record →
      ∃ respBody, (model r).extracted env headers body = some respBody ∧
        record.usage = Handlers.usageOf env.serde r.protocol respBody := by
    intro r hstreams hrecords h
    obtain ⟨hstream, bytes, respBody, status, respHeaders, hbytes, hresponse, husage, -⟩ :=
      Handlers.usage_of_spawned h
    rw [hstream] at hstreams hrecords
    refine ⟨respBody, ?_, husage⟩
    simp only [extracted, forwarded, hbytes, hstreams, Bool.false_eq_true, if_false,
      hresponse, records, hrecords, Bool.not_false, if_true]
  cases route with
  | listModels =>
      obtain ⟨response, -, h⟩ := Handled.spawned_andThen h
      cases h
  | model r =>
      cases r with
      | completions => exact absurd h (hplain _)
      | embeddings => exact absurd h (hplain _)
      | chatCompletions => exact hmodel .chatCompletions rfl rfl h
      | messages => exact hmodel .messages rfl rfl h

/-- The bytes that are extracted are those that were forwarded to the call. -/
theorem eq_of_extracted {request : Forwarder.ClientRequest} {respBody bytes : Bytes}
    {status : StatusCode} {respHeaders : HeaderMap}
    (hforwarded : route.forwarded env.serde headers body = some (.retried, request))
    (hresult : env.forwardRequest request = some (.ok (respBody, status, respHeaders)))
    (h : bytes ∈ route.extracted env headers body) : bytes = respBody := by
  simp only [extracted, hforwarded, hresult, Option.mem_def] at h
  split at h
  · exact (Option.some.inj h).symm
  · cases h

/-- The mode of a call is what its body asks for. -/
theorem streams_of_forwarded {serde : SerdeJson} {mode : Mode}
    {request : Forwarder.ClientRequest}
    (h : route.forwarded serde headers body = some (mode, request)) :
    route.streams body = decide (mode = .streamed) := by
  cases route with
  | listModels =>
      cases h
      rfl
  | model r =>
      simp only [forwarded] at h
      split at h
      · cases h
      · cases h
        rw [streams]
        cases r.streams body <;> rfl

end Handle

end ProxyRoute

/-! ## The last answer -/

namespace Forwarder

section LastAnswer

variable {provider : Provider} {codings : ContentCodings} {config : Config}
  {keyPool : KeyPool} {request : ClientRequest}

/-- If every request of a call could be built, its last request is on its last key. -/
theorem lastAnswer_sendsBy {run : Retry.Run} {earlier : List String} {key : String}
    {req : DownstreamRequest} {wire : WireResponse}
    (hrequests : run.requests = earlier ++ [key])
    (hbuilt : ∀ k ∈ earlier, (downstreamRequest config request k).isSome = true)
    (hreq : downstreamRequest config request key = some req)
    (hwire : provider.answer earlier.length req = .ok wire) :
    provider.lastAnswer (sendsBy config request run.events) = some wire := by
  have hsent : sendsBy config request run.events
      = earlier.filterMap (downstreamRequest config request) ++ [req] := by
    have hkeys : sendsBy config request run.events
        = (earlier ++ [key]).filterMap (downstreamRequest config request) := by
      rw [← hrequests, Retry.Run.requests, List.filterMap_filterMap]
      refine List.filterMap_congr fun event _ => ?_
      cases event <;> rfl
    rw [hkeys, List.filterMap_append]
    simp [hreq]
  have hlength : (earlier.filterMap (downstreamRequest config request)).length
      = earlier.length := List.filterMap_length_eq_length.mpr hbuilt
  rw [Provider.lastAnswer, hsent, List.getLast?_concat, List.length_append, hlength]
  simp [hwire, Except.toOption]

/-- What `forward_request` returns is what `reqwest` made of the last answer. -/
theorem lastAnswer_forwardRequest {respBody : Bytes} {status : StatusCode}
    {respHeaders : HeaderMap}
    (h : (forwardRequest (provider.downstream codings) config keyPool request).result
      = some (.ok (respBody, status, respHeaders))) :
    ∃ wire, provider.lastAnswer (sendsBy config request
        (forwardRequest (provider.downstream codings) config keyPool request).events)
        = some wire ∧ (wire.received codings).bytes = .ok respBody := by
  obtain ⟨result, hresult, hmap⟩ := Option.map_eq_some_iff.mp h
  rcases result with e | ⟨resp, acquired⟩
  · cases hmap
  · obtain ⟨earlier, hrequests, hanswer, hbuilt⟩ := Retry.loop_answer hresult
    obtain ⟨req, hreq, hsend⟩ := Option.map_eq_some_iff.mp hanswer
    rw [Nat.zero_add] at hsend
    obtain ⟨wire, hwire, rfl⟩ := (provider.send_eq_ok_iff codings).mp hsend
    refine ⟨wire, lastAnswer_sendsBy hrequests (fun k hk => ?_) hreq hwire, ?_⟩
    · obtain ⟨m, hm⟩ := hbuilt k hk
      simpa [retryEnv] using hm
    · simp only at hmap
      split at hmap
      · cases hmap
      · rename_i bytes hbytes
        cases hmap
        exact hbytes

/-- So is what `forward_streaming` returns. -/
theorem lastAnswer_forwardStreaming {response : ClientResponse}
    (h : (forwardStreaming (provider.downstream codings) config keyPool request).result
      = some (.ok response)) :
    ∃ wire, provider.lastAnswer (sendsBy config request
        (forwardStreaming (provider.downstream codings) config keyPool request).events)
        = some wire ∧ response.headers = (wire.received codings).headers ∧
      response.body = (wire.received codings).bytes := by
  rcases hacquire : keyPool.acquireKey with ⟨p, e | acquired⟩
  · rw [forwardStreaming, hacquire] at h
    cases h
  · cases hreq : downstreamRequest config request acquired.key with
    | none =>
        simp only [forwardStreaming, hacquire, hreq] at h
        cases h
    | some req =>
        cases hsend : (provider.downstream codings).send 0 req with
        | error e =>
            simp only [forwardStreaming, hacquire, hreq, hsend] at h
            cases h
        | ok resp =>
            obtain ⟨wire, hwire, rfl⟩ := (provider.send_eq_ok_iff codings).mp hsend
            cases hsuccess : (wire.received codings).status.isSuccess with
            | false =>
                -- the client is sent an error of the proxy's own
                simp only [forwardStreaming, hacquire, hreq, hsend, hsuccess, Bool.not_false,
                  if_true] at h
                obtain ⟨u, -, herror⟩ := Option.map_eq_some_iff.mp h
                cases herror
            | true =>
                simp only [forwardStreaming, hacquire, hreq, hsend, hsuccess, Bool.not_true,
                  Bool.false_eq_true, if_false] at h ⊢
                cases h
                have hrequests : ({ pool := p
                                    events := [.acquired acquired, .requested acquired.key]
                                      ++ [.succeeded acquired]
                                    result := none } : Retry.Run).requests
                    = [] ++ [acquired.key] := rfl
                exact ⟨wire, lastAnswer_sendsBy hrequests (by simp) hreq hwire, rfl, rfl⟩

end LastAnswer

end Forwarder

/-! ## What the client reads -/

/-- The client gets the payload of a response, and so does the extraction of the usage, if
there is one. -/
structure Delivers (codings : ContentCodings) (reply : Reply) (extracted : Option Bytes)
    (payload : Bytes) : Prop where
  client : reply.decoded codings = some payload
  usage : ∀ bytes ∈ extracted, bytes = payload

section Received

variable {codings : ContentCodings} {wire : WireResponse} {payload : Bytes}

theorem WireResponse.bytes_received (hpayload : wire.payload codings = some payload) :
    (wire.received codings).bytes = .ok payload ↔
      if wire.isGzip then wire.Gunzips codings else wire.Plain codings := by
  unfold received Plain Gunzips
  cases hgzip : wire.isGzip with
  | true => cases wire.gunzipped codings <;> simp [hpayload]
  | false => simp [hpayload, eq_comm]

/-- **A streamed response decodes, unless gzip was not all there was to decode**: what
`reqwest` has left encoded still says so. -/
theorem decoded_streamed (hpayload : wire.payload codings = some payload)
    {response : ClientResponse} (hheaders : response.headers = (wire.received codings).headers)
    (hbody : response.body = (wire.received codings).bytes) :
    (Reply.streaming response).decoded codings = some payload ↔
      (wire.isGzip = true → wire.Gunzips codings) := by
  rw [Reply.decoded, Reply.body, Reply.headers, hheaders, hbody, WireResponse.received]
  cases hgzip : wire.isGzip with
  | true =>
      have hnone : ((wire.headers.remove CONTENT_ENCODING).remove CONTENT_LENGTH).getAll
          CONTENT_ENCODING = [] := by
        rw [HeaderMap.getAll_remove_of_ne _ _ _ (by decide), HeaderMap.getAll_remove_self]
      rw [WireResponse.Gunzips]
      cases wire.gunzipped codings <;>
        simp [hpayload, hnone, Except.toOption, codings.identity]
  | false => exact iff_of_true hpayload nofun

/-- **Any other response is taken as it is.** -/
theorem decoded_jsonReply (status : StatusCode) (respBody : Bytes) :
    (Handlers.jsonReply status respBody).decoded codings = some respBody := by
  have hnone : HeaderMap.getAll [("content-type", HeaderValue.ofText "application/json")]
      CONTENT_ENCODING = [] := by decide
  rw [Handlers.jsonReply, Reply.decoded, Reply.body, Reply.headers, hnone]
  exact codings.identity respBody

end Received

namespace ProxyRoute

/-- **The provider is asked for the codings the client accepts**, in every attempt. -/
theorem acceptEncoding_sends {serde : SerdeJson} {downstream : Forwarder.Downstream}
    {state : AppState} {headers : HeaderMap} {body : Json} {route : ProxyRoute}
    {req : DownstreamRequest} (h : req ∈ route.sends serde downstream state headers body) :
    req.headers.getAll "accept-encoding" = headers.getAll "accept-encoding" := by
  obtain ⟨mode, request, key, hforwarded, hreq⟩ := mem_sends h
  obtain ⟨-, -, -, hheaders⟩ := downstreamRequest_eq hreq
  obtain ⟨-, -, -, hclient⟩ := forwarded_eq hforwarded
  rw [← hclient]
  exact (Forwarder.headersOf_build hheaders).others "accept-encoding" (by decide)

/-- **The client gets the payload of the response exactly if the call is streamed, or the
response is encoded with gzip, or not at all**; and so does the extraction of the usage.  If
gzip is the first of several codings, the others must not matter. -/
theorem delivers_iff (codings : ContentCodings) (provider : Provider) (serde : SerdeJson)
    (state : AppState) (elapsed : Duration) (clientKey : ClientKey) (headers : HeaderMap)
    (body : Json) (route : ProxyRoute) {reply : Reply}
    (h : (route.handle (.alone serde (provider.downstream codings) state elapsed) clientKey
      headers body).reply = some reply) :
    ∃ wire, provider.lastAnswer
        (route.sends serde (provider.downstream codings) state headers body) = some wire ∧
      ∀ payload, wire.payload codings = some payload →
        (Delivers codings reply (route.extracted
            (.alone serde (provider.downstream codings) state elapsed) headers body) payload ↔
          if wire.isGzip then wire.Gunzips codings
          else route.streams body = true ∨ wire.Plain codings) := by
  obtain ⟨mode, request, hforwarded, hrelayed⟩ := relayed_handle h
  have hsent : route.sends serde (provider.downstream codings) state headers body
      = Forwarder.sendsBy state.config request
          (mode.events (provider.downstream codings) state.config state.keyPool request) := by
    unfold sends
    rw [show route.forwarded serde headers body = _ from hforwarded]
  rw [hsent]
  cases hrelayed with
  | @retried respBody status respHeaders hresult =>
      have hstream : route.streams body = false := streams_of_forwarded hforwarded
      obtain ⟨wire, hwire, hbytes⟩ := Forwarder.lastAnswer_forwardRequest hresult
      refine ⟨wire, hwire, fun payload hpayload => ?_⟩
      rw [hstream]
      simp only [Bool.false_eq_true, false_or]
      rw [← WireResponse.bytes_received hpayload, hbytes, Except.ok.injEq]
      constructor
      · intro hdelivers
        exact Option.some.inj ((decoded_jsonReply status respBody).symm.trans hdelivers.client)
      · rintro rfl
        exact ⟨decoded_jsonReply status respBody,
          fun bytes hbytes => eq_of_extracted hforwarded hresult hbytes⟩
  | @streamed response hresult =>
      have hstream : route.streams body = true := streams_of_forwarded hforwarded
      obtain ⟨wire, hwire, hheaders, hbody⟩ := Forwarder.lastAnswer_forwardStreaming hresult
      refine ⟨wire, hwire, fun payload hpayload => ?_⟩
      have hclient := decoded_streamed hpayload hheaders hbody
      have hdelivers : Delivers codings (.streaming response) (route.extracted
            (.alone serde (provider.downstream codings) state elapsed) headers body) payload ↔
          (wire.isGzip = true → wire.Gunzips codings) := by
        refine ⟨fun h => hclient.mp h.client, fun h => ⟨hclient.mpr h, fun bytes hbytes => ?_⟩⟩
        rw [extracted, hforwarded] at hbytes
        cases hbytes
      rw [hdelivers, hstream]
      cases wire.isGzip <;> simp

/-! ## Single calls -/

/-- An empty object, and what gzip and Brotli make of it. -/
def braces : Bytes := [123, 125]

def gzipBraces : Bytes :=
  [31, 139, 8, 0, 0, 0, 0, 0, 2, 3, 171, 174, 5, 0, 67, 191, 166, 163, 2, 0, 0, 0]

def brotliBraces : Bytes := [139, 0, 128, 123, 125, 3]

/-- What `serde_json` makes of them. -/
def bracesSerde : SerdeJson where
  toVec _ := .ok braces
  fromSlice body :=
    if body = braces then .ok (.object []) else .error "expected value at line 1 column 1"

/-- The two codings, on these bodies. -/
def bracesCodings : ContentCodings where
  decode encoding body :=
    if encoding = [] then some body
    else if encoding = [HeaderValue.ofText "gzip"] ∧ body = gzipBraces then some braces
    else if encoding = [HeaderValue.ofText "br"] ∧ body = brotliBraces then some braces
    else none
  text body := String.ofList (body.map fun b => Char.ofNat b.toNat)
  identity _ := rfl

/-- An answer in a coding. -/
def bracesIn (encoding : String) (body : Bytes) : WireResponse where
  status := .OK
  headers := [(CONTENT_ENCODING, HeaderValue.ofText encoding)]
  body

/-- A provider that answers with an empty object, in Brotli if it is asked for that. -/
def negotiating : Provider where
  answer _ req := .ok
    (if req.headers.getAll "accept-encoding" = [HeaderValue.ofText "br"] then
      bracesIn "br" brotliBraces
    else bracesIn "gzip" gzipBraces)
  now _ := 0
  rng _ := .lowest

/-- A chat completion that is not streamed. -/
def chatEnv : Handlers.Env :=
  .alone bracesSerde (negotiating.downstream bracesCodings) oneKey 5000000

/-- A client that asks for no coding gets the object, which came in gzip. -/
theorem delivers_gzip :
    ∃ reply, ((ProxyRoute.model .chatCompletions).handle chatEnv ⟨"sk-client"⟩ []
        (.object [])).reply = some reply ∧
      Delivers bracesCodings reply
        ((ProxyRoute.model .chatCompletions).extracted chatEnv [] (.object [])) braces := by
  have hreply : ((ProxyRoute.model .chatCompletions).handle chatEnv ⟨"sk-client"⟩ []
      (.object [])).reply = some (Handlers.jsonReply .OK braces) := by rfl
  obtain ⟨wire, hwire, hdelivers⟩ := delivers_iff bracesCodings negotiating bracesSerde
    oneKey 5000000 ⟨"sk-client"⟩ [] (.object []) (.model .chatCompletions) hreply
  have hgzip : wire = bracesIn "gzip" gzipBraces := by
    have hlast : negotiating.lastAnswer ((ProxyRoute.model .chatCompletions).sends
        bracesSerde (negotiating.downstream bracesCodings) oneKey [] (.object []))
        = some (bracesIn "gzip" gzipBraces) := by rfl
    exact Option.some.inj (hwire.symm.trans hlast)
  subst hgzip
  have hgunzips : (bracesIn "gzip" gzipBraces).Gunzips bracesCodings :=
    WireResponse.gunzips_of_gzip _ _ (by rfl)
  exact ⟨_, hreply, (hdelivers braces (by rfl)).mpr hgunzips⟩

/-- A client that asks for Brotli gets six bytes that nothing says are Brotli, and the
usage is extracted from them. -/
theorem not_delivers_brotli :
    (bracesIn "br" brotliBraces).payload bracesCodings = some braces ∧
      ∃ reply, ((ProxyRoute.model .chatCompletions).handle chatEnv ⟨"sk-client"⟩
          [("accept-encoding", HeaderValue.ofText "br")] (.object [])).reply = some reply ∧
        reply.headers = [("content-type", HeaderValue.ofText "application/json")] ∧
        reply.body = some brotliBraces ∧
        (ProxyRoute.model .chatCompletions).extracted chatEnv
          [("accept-encoding", HeaderValue.ofText "br")] (.object []) = some brotliBraces ∧
        ¬ Delivers bracesCodings reply
          ((ProxyRoute.model .chatCompletions).extracted chatEnv
            [("accept-encoding", HeaderValue.ofText "br")] (.object [])) braces := by
  refine ⟨by decide +kernel, Handlers.jsonReply .OK brotliBraces, by rfl, rfl,
    rfl, by rfl, fun h => ?_⟩
  have hclient := h.client
  revert hclient
  decide +kernel

end ProxyRoute

end XiaomiProxy
