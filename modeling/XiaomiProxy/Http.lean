import XiaomiProxy.RustStd

/-!
# The HTTP values the proxy handles

`http::HeaderValue`, `http::HeaderMap`, `http::StatusCode` and the parts of
`reqwest` requests and responses the proxy reads.

A header map is a multimap: a name may carry several values, in order.  `get`
reads the first of them, `remove` drops all of them and `insert` replaces all of
them by one.  Names are kept in lower case, as the crate keeps them.
-/

namespace XiaomiProxy

abbrev Bytes := List UInt8

/-- The bytes of a header value. -/
abbrev HeaderValue := Bytes

namespace HeaderValue

/-- The value of a text without control characters: its UTF-8 bytes. -/
def ofText (s : String) : HeaderValue := s.toList.flatMap String.utf8EncodeChar

/-- `HeaderValue::from_str`: the UTF-8 bytes of the string, refused when one of
them is a control character other than tab. -/
def ofStr (s : String) : Option HeaderValue :=
  let bytes := s.toList.flatMap String.utf8EncodeChar
  if bytes.all fun b => (32 ≤ b && b != 127) || b == 9 then some bytes else none

/-- `HeaderValue::to_str`: only visible ASCII and tab are readable as text. -/
def toStr (v : HeaderValue) : Option String :=
  if v.all fun b => (32 ≤ b && b < 127) || b == 9 then
    some (String.ofList (v.map fun b => Char.ofNat b.toNat))
  else none

/-- A text that a header value can carry and be read as. -/
def Visible (s : String) : Prop :=
  ∀ c ∈ s.toList, (32 ≤ c.toNat ∧ c.toNat < 127) ∨ c.toNat = 9

/-- A text without control characters other than tab. -/
def Clean (s : String) : Prop :=
  ∀ c ∈ s.toList, (32 ≤ c.toNat ∧ c.toNat ≠ 127) ∨ c.toNat = 9

theorem visible_append {s t : String} : Visible (s ++ t) ↔ Visible s ∧ Visible t := by
  simp only [Visible, String.toList_append, List.forall_mem_append]

theorem clean_append {s t : String} : Clean (s ++ t) ↔ Clean s ∧ Clean t := by
  simp only [Clean, String.toList_append, List.forall_mem_append]

theorem Visible.lt_128 {s : String} (h : Visible s) : ∀ c ∈ s.toList, c.toNat < 128 := by
  intro c hc
  rcases h c hc with ⟨-, hlt⟩ | htab <;> omega

/-- **What reads as a text** is the value of that text, if it is a visible one. -/
theorem toStr_eq_some_iff {v : HeaderValue} {s : String} :
    v.toStr = some s ↔ Visible s ∧ v = ofText s := by
  have hread : ∀ b : UInt8, b.toNat < 128 → (Char.ofNat b.toNat).toNat = b.toNat := by
    intro b hb
    rw [Char.toNat_ofNat]
    exact if_pos (Or.inl (by omega))
  constructor
  · intro h
    unfold toStr at h
    split at h
    · rename_i hall
      obtain rfl := Option.some.inj h
      have hbytes : ∀ b ∈ v, (32 ≤ b.toNat ∧ b.toNat < 127) ∨ b.toNat = 9 := by
        intro b hb
        simpa [UInt8.le_iff_toNat_le, UInt8.lt_iff_toNat_lt, ← UInt8.toNat_inj] using
          List.all_eq_true.mp hall b hb
      have hvisible : Visible (String.ofList (v.map fun b => Char.ofNat b.toNat)) := by
        intro c hc
        rw [String.toList_ofList] at hc
        obtain ⟨b, hb, rfl⟩ := List.mem_map.mp hc
        have hrange := hbytes b hb
        rwa [hread b (by omega)]
      refine ⟨hvisible, ?_⟩
      show v = Utf8.encode _
      rw [Utf8.encode_of_lt hvisible.lt_128, String.toList_ofList, List.map_map]
      symm
      refine (List.map_congr_left fun b hb => ?_).trans (List.map_id v)
      have hrange := hbytes b hb
      rw [Function.comp_apply, hread b (by omega)]
      exact UInt8.ofNat_toNat
    · cases h
  · rintro ⟨hvisible, rfl⟩
    have hbytes : ofText s = s.toList.map fun c => UInt8.ofNat c.toNat :=
      Utf8.encode_of_lt hvisible.lt_128
    have htoNat : ∀ c ∈ s.toList, (UInt8.ofNat c.toNat).toNat = c.toNat := by
      intro c hc
      exact UInt8.toNat_ofNat_of_lt' ((hvisible.lt_128 c hc).trans (by decide))
    unfold toStr
    rw [if_pos]
    · rw [hbytes, List.map_map]
      refine congrArg some ((congrArg String.ofList ?_).trans String.ofList_toList)
      refine (List.map_congr_left fun c hc => ?_).trans (List.map_id _)
      rw [Function.comp_apply, htoNat c hc]
      exact Char.ofNat_toNat c
    · rw [hbytes, List.all_map, List.all_eq_true]
      intro c hc
      have hrange := hvisible c hc
      rw [← htoNat c hc] at hrange
      simpa [UInt8.le_iff_toNat_le, UInt8.lt_iff_toNat_lt, ← UInt8.toNat_inj] using hrange

/-- What is readable as text is ASCII. -/
theorem ascii_of_toStr {v : HeaderValue} {s : String} (h : v.toStr = some s) :
    Str.Ascii s := by
  obtain ⟨hvisible, -⟩ := toStr_eq_some_iff.mp h
  intro c hc
  rw [Char.utf8Size_eq_one_iff, UInt32.le_iff_toNat_le]
  exact Nat.le_of_lt_succ (hvisible.lt_128 c hc)

/-- **What can be a header value** is a clean text. -/
theorem ofStr_isSome_iff {s : String} : (ofStr s).isSome = true ↔ Clean s := by
  have hall : ((ofText s).all fun b => (32 ≤ b && b != 127) || b == 9) = true ↔ Clean s := by
    rw [List.all_eq_true]
    have hbytes : (∀ b ∈ ofText s, (32 ≤ b.toNat ∧ b.toNat ≠ 127) ∨ b.toNat = 9) ↔
        ∀ c ∈ s.toList, c.toNat < 128 → (32 ≤ c.toNat ∧ c.toNat ≠ 127) ∨ c.toNat = 9 :=
      Utf8.forall_mem_encode (p := fun n => (32 ≤ n ∧ n ≠ 127) ∨ n = 9)
        fun n hle _ => Or.inl (by omega)
    refine Iff.trans ?_ (hbytes.trans (forall₂_congr fun c _ => ?_))
    · refine forall₂_congr fun b _ => ?_
      simp [UInt8.le_iff_toNat_le, ← UInt8.toNat_inj]
    · constructor
      · intro h
        by_cases hsmall : c.toNat < 128
        · exact h hsmall
        · exact Or.inl (by omega)
      · exact fun h _ => h
  rw [← hall]
  unfold ofStr
  exact Option.isSome_ite

end HeaderValue

abbrev HeaderName := String

/-- A header multimap: the values of a name stand in their order. -/
abbrev HeaderMap := List (HeaderName × HeaderValue)

namespace HeaderMap

/-- The first value of a name. -/
def get (m : HeaderMap) (name : HeaderName) : Option HeaderValue :=
  (m.find? fun h => h.1 = name).map Prod.snd

/-- Drop every value of a name. -/
def remove (m : HeaderMap) (name : HeaderName) : HeaderMap :=
  m.filter fun h => h.1 ≠ name

/-- Replace every value of a name by one. -/
def insert (m : HeaderMap) (name : HeaderName) (value : HeaderValue) : HeaderMap :=
  m.remove name ++ [(name, value)]

/-- The values of a name, in order. -/
def getAll (m : HeaderMap) (name : HeaderName) : List HeaderValue :=
  (m.filter fun h => h.1 = name).map Prod.snd

section GetAll

variable (m : HeaderMap) (name other : HeaderName) (value : HeaderValue)

theorem getAll_remove_self : (m.remove name).getAll name = [] := by
  simp [getAll, remove, List.filter_filter]

theorem getAll_remove_of_ne (h : other ≠ name) :
    (m.remove name).getAll other = m.getAll other := by
  rw [getAll, remove, List.filter_filter, getAll]
  congr 1
  refine List.filter_congr ?_
  intro header _
  by_cases hother : header.1 = other
  · simp [hother, h]
  · simp [hother]

theorem getAll_insert_self : (m.insert name value).getAll name = [value] := by
  have hremoved : (m.remove name).filter (fun h => h.1 = name) = [] :=
    List.map_eq_nil_iff.mp (m.getAll_remove_self name)
  rw [getAll, insert, List.filter_append, hremoved]
  simp

theorem getAll_insert_of_ne (h : other ≠ name) :
    (m.insert name value).getAll other = m.getAll other := by
  rw [← m.getAll_remove_of_ne name other h, getAll, insert, List.filter_append,
    List.map_append, getAll]
  simp [Ne.symm h]

end GetAll

end HeaderMap

def AUTHORIZATION : HeaderName := "authorization"
def HOST : HeaderName := "host"
def CONTENT_LENGTH : HeaderName := "content-length"

/-- A status code is a number from 100 to 999. -/
structure StatusCode where
  asU16 : UInt16
  range : 100 ≤ asU16 ∧ asU16 ≤ 999
  deriving DecidableEq

theorem StatusCode.range_ok : (100 : UInt16) ≤ 200 ∧ (200 : UInt16) ≤ 999 := by decide

theorem StatusCode.range_tooManyRequests : (100 : UInt16) ≤ 429 ∧ (429 : UInt16) ≤ 999 := by
  decide

/-- `StatusCode::OK`. -/
def StatusCode.OK : StatusCode := ⟨200, StatusCode.range_ok⟩

def StatusCode.BAD_REQUEST : StatusCode := ⟨400, by decide⟩
def StatusCode.UNAUTHORIZED : StatusCode := ⟨401, by decide⟩
def StatusCode.TOO_MANY_REQUESTS : StatusCode := ⟨429, StatusCode.range_tooManyRequests⟩
def StatusCode.INTERNAL_SERVER_ERROR : StatusCode := ⟨500, by decide⟩
def StatusCode.BAD_GATEWAY : StatusCode := ⟨502, by decide⟩
def StatusCode.SERVICE_UNAVAILABLE : StatusCode := ⟨503, by decide⟩

/-- `StatusCode::is_success`. -/
def StatusCode.isSuccess (s : StatusCode) : Bool :=
  200 ≤ s.asU16 && s.asU16 < 300

/-- What the proxy sees of a `reqwest::Error`: its text. -/
structure ReqwestError where
  text : String
  deriving DecidableEq

/-- A downstream response: its head, and what reading its body to the end gives,
as bytes or as text. -/
structure Response where
  status : StatusCode
  headers : HeaderMap
  bytes : Except ReqwestError Bytes
  text : Except ReqwestError String

/-- A response with a status and nothing else. -/
def Response.ofStatus (status : StatusCode) : Response where
  status
  headers := []
  bytes := .ok []
  text := .ok ""

/-- A request as it leaves for the downstream provider. -/
structure DownstreamRequest where
  method : String
  url : String
  headers : HeaderMap
  body : Bytes
  deriving DecidableEq

end XiaomiProxy
