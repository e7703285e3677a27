import XiaomiProxy.Config
import XiaomiProxy.Error
import XiaomiProxy.Http

/-!
# Authentication

`auth` of `middleware/auth.rs`: the key a request carries, and whether the client keys
in memory let it through.  The debug line in between masks the key; a key read off a
header is ASCII, so the mask always comes back (`maskKey_of_auth`) and the line is left
out.
-/

namespace XiaomiProxy

/-- What an authenticated request carries on. -/
structure ClientKey where
  key : String
  deriving DecidableEq, Repr

namespace Auth

/-- The key of a request: what follows `Bearer ` in the authorization header, or the
`x-api-key` header. -/
def extractKey (headers : HeaderMap) : Option String :=
  let authHeader := ((headers.get AUTHORIZATION).bind HeaderValue.toStr).bind
    (Str.stripPrefix "Bearer ")
  let apiKeyHeader := (headers.get "x-api-key").bind HeaderValue.toStr
  authHeader.or apiKeyHeader

/-- Let a request with this key through if it is one of the client keys. -/
def authorize (clientKeys : Finset String) : Option String → Except AppError ClientKey
  | some k => if k ∈ clientKeys then .ok { key := k } else .error .unauthorized
  | none => .error .unauthorized

/-- `auth`, up to the next handler. -/
def auth (clientKeys : Finset String) (headers : HeaderMap) : Except AppError ClientKey :=
  authorize clientKeys (extractKey headers)

/-- A key is let through exactly if it is a client key. -/
theorem authorize_isOk_iff {clientKeys : Finset String} {k : String} :
    (authorize clientKeys (some k)).isOk = true ↔ k ∈ clientKeys := by
  rw [authorize]
  split <;> simp_all [Except.isOk, Except.toBool]

/-- The key of a request is ASCII. -/
theorem ascii_of_extractKey {headers : HeaderMap} {key : String}
    (h : extractKey headers = some key) : Str.Ascii key := by
  rw [extractKey, Option.or_eq_some_iff] at h
  rcases h with hbearer | ⟨-, hapiKey⟩
  · obtain ⟨value, hvalue, hstrip⟩ := Option.bind_eq_some_iff.mp hbearer
    obtain ⟨header, hheader, htext⟩ := Option.bind_eq_some_iff.mp hvalue
    rw [Str.stripPrefix, Option.ite_none_right_eq_some] at hstrip
    obtain ⟨-, hrest⟩ := hstrip
    intro c hc
    rw [← Option.some.inj hrest, String.toList_ofList] at hc
    exact HeaderValue.ascii_of_toStr htext c (List.mem_of_mem_drop hc)
  · obtain ⟨header, hheader, htext⟩ := Option.bind_eq_some_iff.mp hapiKey
    exact HeaderValue.ascii_of_toStr htext

/-- The key of a request that is let through has a mask. -/
theorem maskKey_of_auth {clientKeys : Finset String} {headers : HeaderMap}
    {clientKey : ClientKey} (h : auth clientKeys headers = .ok clientKey) :
    ∃ masked, Config.maskKey clientKey.key = some masked := by
  unfold auth at h
  cases hkey : extractKey headers with
  | none =>
      rw [hkey] at h
      cases h
  | some key =>
      rw [hkey, authorize] at h
      split at h
      · cases h
        exact Config.maskKey_of_ascii (ascii_of_extractKey hkey)
      · cases h

/-- A request that is let through goes on with its key. -/
theorem extractKey_of_auth {clientKeys : Finset String} {headers : HeaderMap}
    {clientKey : ClientKey} (h : auth clientKeys headers = .ok clientKey) :
    extractKey headers = some clientKey.key := by
  unfold auth at h
  cases hkey : extractKey headers with
  | none =>
      rw [hkey] at h
      cases h
  | some key =>
      rw [hkey, authorize] at h
      split at h
      · cases h
        rfl
      · cases h

end Auth

end XiaomiProxy
