import XiaomiProxy.Middleware.Auth

/-!
# The credentials of a request

A request may carry client keys in two headers, `Bearer ` before the one in
`authorization`, and a header may have several values.  `auth` settles on one of them
before it looks at the client keys: on the first `authorization` value if it reads as
`Bearer ` and a text, and on the first `x-api-key` value otherwise
(`extractKey_eq_some_iff`).

So it never lets a request through that carries no client key, and attaches one the
request carried.  But it turns away a request whose client key is shadowed by what it
settles on (`acceptsCarried_iff`).
-/

namespace XiaomiProxy

namespace Auth

/-- Which value of a name is meant, where it has several: the first, or any. -/
inductive Reading where
  | first
  | any
  deriving DecidableEq, Repr

/-- The values of a name that count. -/
def values (headers : HeaderMap) (name : HeaderName) : Reading → List HeaderValue
  | .first => (headers.get name).toList
  | .any => headers.getAll name

/-- The request carries the key in one of the two headers. -/
def Carries (reading : Reading) (headers : HeaderMap) (key : String) : Prop :=
  HeaderValue.ofText ("Bearer " ++ key) ∈ values headers AUTHORIZATION reading ∨
    HeaderValue.ofText key ∈ values headers "x-api-key" reading

/-- A request is let through exactly if it carries a client key, and goes on with one
it carried. -/
structure AcceptsCarried (reading : Reading) (clientKeys : Finset String)
    (headers : HeaderMap) : Prop where
  isOk_iff : (auth clientKeys headers).isOk = true ↔
    ∃ key ∈ clientKeys, Carries reading headers key
  attached : ∀ clientKey, auth clientKeys headers = .ok clientKey →
    clientKey.key ∈ clientKeys ∧ Carries reading headers clientKey.key

/-- The request shows the key: in the first `authorization` value, or in the first
`x-api-key` value while no `Bearer ` text is in the way; and as visible ASCII. -/
def Shows (headers : HeaderMap) (key : String) : Prop :=
  HeaderValue.Visible key ∧
    (headers.get AUTHORIZATION = some (HeaderValue.ofText ("Bearer " ++ key)) ∨
      (∀ text, HeaderValue.Visible text →
        headers.get AUTHORIZATION ≠ some (HeaderValue.ofText ("Bearer " ++ text))) ∧
      headers.get "x-api-key" = some (HeaderValue.ofText key))

section Shows

variable {headers : HeaderMap} {key text : String}

/-- A header that reads as a text has the value of a visible one. -/
theorem readable_eq_some_iff {name : HeaderName} :
    (headers.get name).bind HeaderValue.toStr = some text ↔
      HeaderValue.Visible text ∧ headers.get name = some (HeaderValue.ofText text) := by
  rw [Option.bind_eq_some_iff]
  constructor
  · rintro ⟨value, hvalue, hread⟩
    obtain ⟨hvisible, rfl⟩ := HeaderValue.toStr_eq_some_iff.mp hread
    exact ⟨hvisible, hvalue⟩
  · rintro ⟨hvisible, hvalue⟩
    exact ⟨_, hvalue, HeaderValue.toStr_eq_some_iff.mpr ⟨hvisible, rfl⟩⟩

/-- What is read off a header after a scheme. -/
theorem stripped_eq_some_iff {name : HeaderName} {scheme : String}
    (hscheme : HeaderValue.Visible scheme) :
    ((headers.get name).bind HeaderValue.toStr).bind (Str.stripPrefix scheme) = some text ↔
      HeaderValue.Visible text ∧
        headers.get name = some (HeaderValue.ofText (scheme ++ text)) := by
  rw [Option.bind_eq_some_iff]
  constructor
  · rintro ⟨value, hvalue, hstrip⟩
    obtain rfl := Str.stripPrefix_eq_some_iff.mp hstrip
    obtain ⟨hvisible, hheader⟩ := readable_eq_some_iff.mp hvalue
    exact ⟨(HeaderValue.visible_append.mp hvisible).2, hheader⟩
  · rintro ⟨hvisible, hheader⟩
    refine ⟨scheme ++ text, readable_eq_some_iff.mpr ⟨?_, hheader⟩,
      Str.stripPrefix_eq_some_iff.mpr rfl⟩
    exact HeaderValue.visible_append.mpr ⟨hscheme, hvisible⟩

/-- What is read off the `authorization` header. -/
theorem bearer_eq_some_iff :
    ((headers.get AUTHORIZATION).bind HeaderValue.toStr).bind (Str.stripPrefix "Bearer ")
        = some key ↔
      HeaderValue.Visible key ∧
        headers.get AUTHORIZATION = some (HeaderValue.ofText ("Bearer " ++ key)) :=
  stripped_eq_some_iff (by simp [HeaderValue.Visible])

/-- **What `auth` settles on** is the key the request shows. -/
theorem extractKey_eq_some_iff : extractKey headers = some key ↔ Shows headers key := by
  have hnone : ((headers.get AUTHORIZATION).bind HeaderValue.toStr).bind
      (Str.stripPrefix "Bearer ") = none ↔
        ∀ text, HeaderValue.Visible text →
          headers.get AUTHORIZATION ≠ some (HeaderValue.ofText ("Bearer " ++ text)) := by
    rw [Option.eq_none_iff_forall_ne_some]
    refine forall_congr' fun text => ?_
    rw [ne_eq, bearer_eq_some_iff, not_and]
  rw [extractKey, Option.or_eq_some_iff, bearer_eq_some_iff, hnone, readable_eq_some_iff]
  constructor
  · rintro (⟨hvisible, hbearer⟩ | ⟨hscheme, hvisible, hkey⟩)
    · exact ⟨hvisible, Or.inl hbearer⟩
    · exact ⟨hvisible, Or.inr ⟨hscheme, hkey⟩⟩
  · rintro ⟨hvisible, hbearer | ⟨hscheme, hkey⟩⟩
    · exact Or.inl ⟨hvisible, hbearer⟩
    · exact Or.inr ⟨hscheme, hvisible, hkey⟩

/-- The first value of a name counts, however the others are read. -/
theorem mem_values_of_get {name : HeaderName} {value : HeaderValue} (reading : Reading)
    (h : headers.get name = some value) : value ∈ values headers name reading := by
  cases reading with
  | first => exact Option.mem_toList.mpr h
  | any =>
      obtain ⟨header, hfind, rfl⟩ := Option.map_eq_some_iff.mp h
      have hname := List.find?_some hfind
      exact List.mem_map_of_mem (List.mem_filter.mpr ⟨List.mem_of_find?_eq_some hfind, hname⟩)

/-- A request carries the key it shows. -/
theorem Shows.carries (h : Shows headers key) (reading : Reading) :
    Carries reading headers key := by
  obtain ⟨-, hbearer | ⟨-, hkey⟩⟩ := h
  · exact Or.inl (mem_values_of_get reading hbearer)
  · exact Or.inr (mem_values_of_get reading hkey)

end Shows

section Accepts

variable {clientKeys : Finset String} {headers : HeaderMap} {clientKey : ClientKey}

/-- The key a request goes on with is a client key that it shows. -/
theorem auth_eq_ok_iff : auth clientKeys headers = .ok clientKey ↔
    clientKey.key ∈ clientKeys ∧ Shows headers clientKey.key := by
  rw [← extractKey_eq_some_iff]
  unfold auth
  constructor
  · intro h
    cases hkey : extractKey headers with
    | none =>
        rw [hkey] at h
        cases h
    | some key =>
        rw [hkey, authorize] at h
        split at h
        · obtain rfl := Except.ok.inj h
          exact ⟨‹_›, rfl⟩
        · cases h
  · rintro ⟨hmem, hkey⟩
    rw [hkey, authorize, if_pos hmem]

theorem auth_isOk_iff : (auth clientKeys headers).isOk = true ↔
    ∃ key ∈ clientKeys, Shows headers key := by
  constructor
  · intro h
    cases hauth : auth clientKeys headers with
    | error e =>
        rw [hauth] at h
        cases h
    | ok clientKey => exact ⟨clientKey.key, auth_eq_ok_iff.mp hauth⟩
  · rintro ⟨key, hmem, hshows⟩
    have hok : auth clientKeys headers = .ok ⟨key⟩ := auth_eq_ok_iff.mpr ⟨hmem, hshows⟩
    rw [hok]
    rfl

/-- **A request is treated as the documentation says exactly if what it shows is a
client key, or it carries none.** -/
theorem acceptsCarried_iff (reading : Reading) (clientKeys : Finset String)
    (headers : HeaderMap) :
    AcceptsCarried reading clientKeys headers ↔
      ((∃ key ∈ clientKeys, Carries reading headers key) →
        ∃ key ∈ clientKeys, Shows headers key) := by
  constructor
  · intro h hcarries
    exact auth_isOk_iff.mp (h.isOk_iff.mpr hcarries)
  · intro h
    refine ⟨⟨fun hok => ?_, fun hcarries => auth_isOk_iff.mpr (h hcarries)⟩, ?_⟩
    · obtain ⟨key, hmem, hshows⟩ := auth_isOk_iff.mp hok
      exact ⟨key, hmem, hshows.carries reading⟩
    · intro clientKey hauth
      obtain ⟨hmem, hshows⟩ := auth_eq_ok_iff.mp hauth
      exact ⟨hmem, hshows.carries reading⟩

/-- A stale bearer token shadows a client key in the other header, however headers are
read. -/
theorem not_acceptsCarried_of_stale_bearer :
    ¬ ∃ reading, AcceptsCarried reading {"sk-client"}
      [(AUTHORIZATION, HeaderValue.ofText "Bearer stale"),
        ("x-api-key", HeaderValue.ofText "sk-client")] := by
  rintro ⟨reading, h⟩
  have hcarries : ∃ key ∈ ({"sk-client"} : Finset String), Carries reading
      [(AUTHORIZATION, HeaderValue.ofText "Bearer stale"),
        ("x-api-key", HeaderValue.ofText "sk-client")] key :=
    ⟨"sk-client", Finset.mem_singleton_self _, Or.inr (mem_values_of_get reading rfl)⟩
  have hok := h.isOk_iff.mpr hcarries
  revert hok
  decide +kernel

end Accepts

end Auth

end XiaomiProxy
