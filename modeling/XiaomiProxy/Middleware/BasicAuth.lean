import XiaomiProxy.Lib.Base64
import XiaomiProxy.Middleware.Credentials

/-!
# Authentication of the admin routes

`basic_auth` of `middleware/basic_auth.rs`.  It never decodes what a client sends: it
encodes the configured user name and password, and compares the encoding with the text
of the client.

Since an encoding stands for its bytes alone, and UTF-8 bytes for their text alone, the
comparison is one of the text `user:password` (`admits_iff`).  That text does not tell
where the user name ends.  Between user names without a colon, a client gets in with
the configured pair and no other one (`admits_client_iff`).
-/

namespace XiaomiProxy

/-- A response with a fixed text. -/
structure TextResponse where
  status : StatusCode
  headers : HeaderMap
  body : String
  deriving DecidableEq

namespace BasicAuth

/-- `unauthorized_response`. -/
def unauthorizedResponse : TextResponse where
  status := .UNAUTHORIZED
  headers :=
    [("www-authenticate",
        HeaderValue.ofText "Basic realm=\"Admin Console\", charset=\"UTF-8\""),
      ("content-type", HeaderValue.ofText "application/json")]
  body := "\x7b\"error\":\x7b\"message\":\"Unauthorized: admin credentials required\"," ++
    "\"type\":\"authentication_error\"\x7d\x7d"

/-- A user name and a password, as a client has to send them. -/
def encoded (username password : String) : String :=
  Base64.encode (Utf8.encode (username ++ ":" ++ password).toList)

/-- What follows `Basic ` in the authorization header. -/
def provided (headers : HeaderMap) : Option String :=
  (((headers.get AUTHORIZATION).bind HeaderValue.toStr).bind
    (Str.stripPrefix "Basic ")).map Str.trim

/-- `basic_auth`, up to the next handler. -/
def basicAuth (admin : AdminConfig) (headers : HeaderMap) : Except TextResponse Unit :=
  if admin.username = "" ∨ admin.password = "" then .ok ()
  else
    match provided headers with
    | some b64 =>
        if b64 = encoded admin.username admin.password then .ok ()
        else .error unauthorizedResponse
    | none => .error unauthorizedResponse

/-- Both credentials are configured. -/
def Configured (admin : AdminConfig) : Prop := admin.username ≠ "" ∧ admin.password ≠ ""

/-- The first authorization value is `Basic `, and an encoding of the bytes with white
space around it. -/
def Presents (headers : HeaderMap) (bytes : Bytes) : Prop :=
  ∃ text, HeaderValue.Visible text ∧
    headers.get AUTHORIZATION = some (HeaderValue.ofText ("Basic " ++ text)) ∧
    Base64.decode (Str.trim text) = some bytes

section BasicAuth

variable {admin : AdminConfig} {headers : HeaderMap} {username password text : String}

theorem provided_eq_some_iff : provided headers = some text ↔
    ∃ sent, HeaderValue.Visible sent ∧
      headers.get AUTHORIZATION = some (HeaderValue.ofText ("Basic " ++ sent)) ∧
      Str.trim sent = text := by
  rw [provided, Option.map_eq_some_iff]
  refine exists_congr fun sent => ?_
  rw [Auth.stripped_eq_some_iff (by simp [HeaderValue.Visible]), and_assoc]

/-- A client presents what it encoded. -/
theorem presents_iff {bytes : Bytes} :
    Presents headers bytes ↔ provided headers = some (Base64.encode bytes) := by
  rw [provided_eq_some_iff]
  refine exists_congr fun sent => ?_
  rw [Base64.decode_eq_some_iff, eq_comm (a := Base64.encode bytes)]

/-- **A request gets to an admin handler exactly if it presents the bytes of the
configured text**, once both credentials are configured. -/
theorem admits_iff (admin : AdminConfig) (headers : HeaderMap) :
    basicAuth admin headers = .ok () ↔
      (Configured admin →
        Presents headers (Utf8.encode (admin.username ++ ":" ++ admin.password).toList)) := by
  rw [presents_iff, basicAuth]
  by_cases hconfigured : Configured admin
  · rw [if_neg (not_or.mpr hconfigured), forall_prop_of_true hconfigured]
    cases hprovided : provided headers with
    | none => simp
    | some b64 =>
        rw [Option.some.injEq]
        show (if b64 = encoded admin.username admin.password then _ else _) = _ ↔ _
        rw [encoded]
        split_ifs with hsame
        · exact iff_of_true rfl hsame
        · exact iff_of_false (by simp) hsame
  · rw [forall_prop_of_false hconfigured, if_pos]
    · simp
    · by_contra h
      exact hconfigured (not_or.mp h)

/-- Neither trimming nor a header changes an encoding. -/
theorem visible_encode (bytes : Bytes) : HeaderValue.Visible (Base64.encode bytes) := by
  have hall : (Base64.padding :: Base64.alphabet).all
      (fun c => 32 ≤ c.toNat && c.toNat < 127) = true := by decide +kernel
  intro c hc
  rw [Base64.encode, String.toList_ofList] at hc
  left
  simpa using List.all_eq_true.mp hall c (Base64.mem_symbols hc)

theorem trim_encode (bytes : Bytes) :
    Str.trim (Base64.encode bytes) = Base64.encode bytes := by
  have hall : (Base64.padding :: Base64.alphabet).all (fun c => !Str.isWhitespace c)
      = true := by decide +kernel
  refine Str.trim_eq_self fun c hc => ?_
  rw [Base64.encode, String.toList_ofList] at hc
  simpa using List.all_eq_true.mp hall c (Base64.mem_symbols hc)

/-- What a client that encodes its bytes presents. -/
theorem presents_of_sent {sent bytes : Bytes}
    (h : headers.get AUTHORIZATION
      = some (HeaderValue.ofText ("Basic " ++ Base64.encode sent))) :
    Presents headers bytes ↔ sent = bytes := by
  have hprovided : provided headers = some (Base64.encode sent) :=
    provided_eq_some_iff.mpr ⟨_, visible_encode sent, h, trim_encode sent⟩
  rw [presents_iff, hprovided, Option.some.injEq]
  exact Base64.encode_injective.eq_iff

/-- What stands before the first colon, and what stands after it. -/
theorem append_colon_inj {before before' after after' : List Char} (h : ':' ∉ before)
    (h' : ':' ∉ before')
    (heq : before ++ (":".toList ++ after) = before' ++ (":".toList ++ after')) :
    before = before' ∧ after = after' := by
  obtain ⟨between, hbefore, hafter⟩ | ⟨between, hbefore, hafter⟩ :=
    List.append_eq_append_iff.mp heq
  · cases between with
    | nil => exact ⟨by simpa using hbefore.symm, by simpa using hafter⟩
    | cons c between =>
        obtain rfl : c = ':' := (List.cons.inj hafter).1.symm
        exact absurd (by simp [hbefore]) h'
  · cases between with
    | nil => exact ⟨by simpa using hbefore, by simpa using hafter.symm⟩
    | cons c between =>
        obtain rfl : c = ':' := (List.cons.inj hafter).1.symm
        exact absurd (by simp [hbefore]) h

/-- Where the user names have no colon, the text tells the pair. -/
theorem pair_eq_iff {username' password' : String} (h : ':' ∉ username.toList)
    (h' : ':' ∉ username'.toList) :
    username ++ ":" ++ password = username' ++ ":" ++ password' ↔
      username = username' ∧ password = password' := by
  constructor
  · intro heq
    have hlist := congrArg String.toList heq
    simp only [String.toList_append, List.append_assoc] at hlist
    obtain ⟨hname, hrest⟩ := append_colon_inj h h' hlist
    exact ⟨String.toList_inj.mp hname, String.toList_inj.mp hrest⟩
  · rintro ⟨rfl, rfl⟩
    rfl

/-- **A client gets in with the configured pair, and with no other one**, where user
names have no colon. -/
theorem admits_client_iff (hconfigured : Configured admin)
    (hadmin : ':' ∉ admin.username.toList) (husername : ':' ∉ username.toList)
    (hsent : headers.get AUTHORIZATION
      = some (HeaderValue.ofText ("Basic " ++ encoded username password))) :
    basicAuth admin headers = .ok () ↔
      username = admin.username ∧ password = admin.password := by
  rw [admits_iff, forall_prop_of_true hconfigured, presents_of_sent hsent,
    Utf8.encode_injective.eq_iff, String.toList_inj, pair_eq_iff husername hadmin]

/-- Passwords may have colons; here the wrong one starts like the right one, which gets
in. -/
theorem admits_client_iff_colons :
    basicAuth { username := "admin", password := "pass:word" }
        [(AUTHORIZATION, HeaderValue.ofText ("Basic " ++ encoded "admin" "pass:word"))]
        = .ok () ∧
      (basicAuth { username := "admin", password := "pass:word" }
          [(AUTHORIZATION, HeaderValue.ofText ("Basic " ++ encoded "admin" "pass"))] = .ok () ↔
        "admin" = "admin" ∧ "pass" = "pass:word") :=
  ⟨(admits_client_iff ⟨by decide, by decide⟩ (by decide) (by decide) rfl).mpr ⟨rfl, rfl⟩,
    admits_client_iff ⟨by decide, by decide⟩ (by decide) (by decide) rfl⟩

end BasicAuth

end BasicAuth

end XiaomiProxy
