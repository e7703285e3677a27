import XiaomiProxy.Proxy.Forwarder

/-!
# The headers of a downstream request

What a provider is sent of the headers of a client.  The four names that say who the
client is and how its own request was framed are taken out with all their values;
authorization, and for Anthropic `x-api-key`, come back with the downstream key as their
only value; every other name keeps its values, in order (`headersOf_build`).

What comes out under the four names therefore does not depend on what the client put
there: two clients that agree on the other names send the same
(`buildDownstreamHeaders_isolates`).
-/

namespace XiaomiProxy.Forwarder

/-- The names a client has no say in. -/
def replacedNames : List HeaderName :=
  [AUTHORIZATION, "x-api-key", HOST, CONTENT_LENGTH]

/-- The values sent under `x-api-key`: the downstream key, for Anthropic, when it is a
header value. -/
def apiKeyValues (downstreamKey : String) : Protocol → List HeaderValue
  | .openAI => []
  | .anthropic => (HeaderValue.ofStr downstreamKey).toList

/-- The headers sent with a downstream key, name by name. -/
structure SentHeaders (original : HeaderMap) (downstreamKey : String)
    (protocol : Protocol) (headers : HeaderMap) : Prop where
  /-- Authorization is the downstream key and nothing else. -/
  authorization : ∃ authValue, HeaderValue.ofStr ("Bearer " ++ downstreamKey)
    = some authValue ∧ headers.getAll AUTHORIZATION = [authValue]
  apiKey : headers.getAll "x-api-key" = apiKeyValues downstreamKey protocol
  host : headers.getAll HOST = []
  contentLength : headers.getAll CONTENT_LENGTH = []
  /-- Every other name keeps all its values, in order. -/
  others : ∀ name ∉ replacedNames, headers.getAll name = original.getAll name

/-- The headers of the client without the four names. -/
def stripped (original : HeaderMap) : HeaderMap :=
  (((original.remove AUTHORIZATION).remove "x-api-key").remove HOST).remove
    CONTENT_LENGTH

section Stripped

variable (original : HeaderMap) {name : HeaderName}

theorem getAll_stripped_of_mem (h : name ∈ replacedNames) :
    (stripped original).getAll name = [] := by
  simp only [replacedNames, List.mem_cons, List.not_mem_nil, or_false] at h
  -- the last removal of the name leaves nothing, and the later ones are of other names
  rcases h with rfl | rfl | rfl | rfl
  · rw [stripped, HeaderMap.getAll_remove_of_ne _ _ _ (by decide),
      HeaderMap.getAll_remove_of_ne _ _ _ (by decide),
      HeaderMap.getAll_remove_of_ne _ _ _ (by decide), HeaderMap.getAll_remove_self]
  · rw [stripped, HeaderMap.getAll_remove_of_ne _ _ _ (by decide),
      HeaderMap.getAll_remove_of_ne _ _ _ (by decide), HeaderMap.getAll_remove_self]
  · rw [stripped, HeaderMap.getAll_remove_of_ne _ _ _ (by decide),
      HeaderMap.getAll_remove_self]
  · rw [stripped, HeaderMap.getAll_remove_self]

theorem getAll_stripped_of_notMem (h : name ∉ replacedNames) :
    (stripped original).getAll name = original.getAll name := by
  simp only [replacedNames, List.mem_cons, List.not_mem_nil, or_false, not_or] at h
  obtain ⟨hauth, hkey, hhost, hlength⟩ := h
  rw [stripped, HeaderMap.getAll_remove_of_ne _ _ _ hlength,
    HeaderMap.getAll_remove_of_ne _ _ _ hhost,
    HeaderMap.getAll_remove_of_ne _ _ _ hkey,
    HeaderMap.getAll_remove_of_ne _ _ _ hauth]

end Stripped

section Build

variable {original original' headers : HeaderMap} {downstreamKey : String}
  {protocol : Protocol}

/-- Whether the headers can be built depends on the downstream key only, and they are
the stripped ones with the values of the key put in. -/
theorem build_eq_some_iff :
    buildDownstreamHeaders original downstreamKey protocol = some headers ↔
      ∃ authValue, HeaderValue.ofStr ("Bearer " ++ downstreamKey) = some authValue ∧
        headers = (apiKeyValues downstreamKey protocol).foldl
          (fun sent value => sent.insert "x-api-key" value)
          ((stripped original).insert AUTHORIZATION authValue) := by
  unfold buildDownstreamHeaders
  cases hauth : HeaderValue.ofStr ("Bearer " ++ downstreamKey) with
  | none => simp
  | some authValue =>
      cases protocol with
      | openAI => simp [apiKeyValues, stripped, eq_comm]
      | anthropic =>
          cases hkey : HeaderValue.ofStr downstreamKey with
          | none => simp [apiKeyValues, stripped, hkey, eq_comm]
          | some value => simp [apiKeyValues, stripped, hkey, eq_comm]

/-- The headers can be built with every key that has no control character, and with no
other. -/
theorem exists_build_iff :
    (∃ headers, buildDownstreamHeaders original downstreamKey protocol = some headers) ↔
      HeaderValue.Clean downstreamKey := by
  have hscheme : HeaderValue.Clean "Bearer " := by simp [HeaderValue.Clean]
  have hvalue : (∃ authValue, HeaderValue.ofStr ("Bearer " ++ downstreamKey)
      = some authValue) ↔ HeaderValue.Clean downstreamKey := by
    rw [← Option.isSome_iff_exists, HeaderValue.ofStr_isSome_iff, HeaderValue.clean_append,
      and_iff_right hscheme]
  rw [← hvalue]
  constructor
  · rintro ⟨headers, hbuild⟩
    obtain ⟨authValue, hauth, -⟩ := build_eq_some_iff.mp hbuild
    exact ⟨authValue, hauth⟩
  · rintro ⟨authValue, hauth⟩
    exact ⟨_, build_eq_some_iff.mpr ⟨authValue, hauth, rfl⟩⟩

/-- A request can be issued with the same keys. -/
theorem downstreamRequest_isSome_iff (config : Config) (request : ClientRequest) :
    (downstreamRequest config request downstreamKey).isSome = true ↔
      HeaderValue.Clean downstreamKey := by
  have hbuild : (∃ headers, buildDownstreamHeaders request.headers downstreamKey
      request.protocol = some headers) ↔ HeaderValue.Clean downstreamKey := exists_build_iff
  rw [← hbuild]
  unfold downstreamRequest
  cases buildDownstreamHeaders request.headers downstreamKey request.protocol <;> simp

/-- **What is sent**, name by name. -/
theorem headersOf_build
    (h : buildDownstreamHeaders original downstreamKey protocol = some headers) :
    SentHeaders original downstreamKey protocol headers := by
  obtain ⟨authValue, hauth, hheaders⟩ := build_eq_some_iff.mp h
  have hbase : ∀ name, name ≠ "x-api-key" →
      headers.getAll name = ((stripped original).insert AUTHORIZATION authValue).getAll
        name := by
    intro name hname
    rw [hheaders]
    cases protocol with
    | openAI => rfl
    | anthropic =>
        unfold apiKeyValues
        cases HeaderValue.ofStr downstreamKey with
        | none => rfl
        | some value => exact HeaderMap.getAll_insert_of_ne _ _ _ _ hname
  have hsent : ∀ name, name ≠ "x-api-key" → name ≠ AUTHORIZATION →
      headers.getAll name = (stripped original).getAll name := by
    intro name hkey hname
    rw [hbase name hkey, HeaderMap.getAll_insert_of_ne _ _ _ _ hname]
  refine ⟨⟨authValue, hauth, ?_⟩, ?_, ?_, ?_, ?_⟩
  · rw [hbase AUTHORIZATION (by decide), HeaderMap.getAll_insert_self]
  · have hnone : ((stripped original).insert AUTHORIZATION authValue).getAll "x-api-key"
        = [] := by
      rw [HeaderMap.getAll_insert_of_ne _ _ _ _ (by decide),
        getAll_stripped_of_mem original (by decide)]
    rw [hheaders]
    cases protocol with
    | openAI => exact hnone
    | anthropic =>
        unfold apiKeyValues
        cases HeaderValue.ofStr downstreamKey with
        | none => exact hnone
        | some value => exact HeaderMap.getAll_insert_self _ _ _
  · rw [hsent HOST (by decide) (by decide), getAll_stripped_of_mem original (by decide)]
  · rw [hsent CONTENT_LENGTH (by decide) (by decide),
      getAll_stripped_of_mem original (by decide)]
  · intro name hname
    have hkey : name ≠ "x-api-key" := by
      rintro rfl
      exact hname (by decide)
    have hauthName : name ≠ AUTHORIZATION := by
      rintro rfl
      exact hname (by decide)
    rw [hsent name hkey hauthName, getAll_stripped_of_notMem original hname]

/-- **Client credentials do not reach the provider.**  Two header maps that agree
outside the four replaced names are sent alike, and what is sent is the downstream key
under its own names, nothing under the others, and the rest of the client's headers. -/
theorem buildDownstreamHeaders_isolates
    (hagree : ∀ name ∉ replacedNames, original.getAll name = original'.getAll name)
    (h : buildDownstreamHeaders original downstreamKey protocol = some headers) :
    SentHeaders original downstreamKey protocol headers ∧
      ∃ headers', buildDownstreamHeaders original' downstreamKey protocol = some headers' ∧
        ∀ name, headers'.getAll name = headers.getAll name := by
  have hsent := headersOf_build h
  obtain ⟨authValue, hauth, -⟩ := build_eq_some_iff.mp h
  have h' : buildDownstreamHeaders original' downstreamKey protocol = some _ :=
    build_eq_some_iff.mpr ⟨authValue, hauth, rfl⟩
  refine ⟨hsent, _, h', ?_⟩
  have hsent' := headersOf_build h'
  intro name
  by_cases hname : name ∈ replacedNames
  · simp only [replacedNames, List.mem_cons, List.not_mem_nil, or_false] at hname
    rcases hname with rfl | rfl | rfl | rfl
    · obtain ⟨value, hvalue, hgot⟩ := hsent.authorization
      obtain ⟨value', hvalue', hgot'⟩ := hsent'.authorization
      obtain rfl : value = value' := Option.some.inj (hvalue.symm.trans hvalue')
      rw [hgot, hgot']
    · rw [hsent.apiKey, hsent'.apiKey]
    · rw [hsent.host, hsent'.host]
    · rw [hsent.contentLength, hsent'.contentLength]
  · rw [hsent'.others name hname, hsent.others name hname, hagree name hname]

end Build

/-- A client that sends its key under both names, twice under one of them, is sent on
like one that sends none. -/
theorem buildDownstreamHeaders_isolates_two_clients :
    ∃ headers headers',
      buildDownstreamHeaders [("authorization", [65]), ("x-api-key", [66]),
        ("accept", [67]), ("x-api-key", [68])] "tp-1" .anthropic = some headers ∧
      buildDownstreamHeaders [("accept", [67])] "tp-1" .anthropic = some headers' ∧
      ∀ name, headers'.getAll name = headers.getAll name := by
  have hagree : ∀ name ∉ replacedNames,
      HeaderMap.getAll [("authorization", [65]), ("x-api-key", [66]),
        ("accept", [67]), ("x-api-key", [68])] name
      = HeaderMap.getAll [("accept", [67])] name := by
    intro name hname
    simp only [replacedNames, List.mem_cons, List.not_mem_nil, or_false, not_or] at hname
    obtain ⟨hauth, hkey, -, -⟩ := hname
    have hauth' : "authorization" ≠ name := Ne.symm hauth
    have hkey' : "x-api-key" ≠ name := Ne.symm hkey
    simp [HeaderMap.getAll, List.filter_cons, hauth', hkey']
  obtain ⟨-, headers', h', hsame⟩ := buildDownstreamHeaders_isolates hagree
    (rfl : buildDownstreamHeaders _ "tp-1" .anthropic = some _)
  exact ⟨_, headers', rfl, h', hsame⟩

end XiaomiProxy.Forwarder
