import XiaomiProxy.Lib.Utf8

/-!
# The standard library pieces the proxy uses

* `str::trim`, `str::split`, `str::strip_prefix`, `str::parse::<u16>` and
  slicing by byte offset, on Lean strings.  Slicing works on UTF-8 offsets and
  panics when an offset falls inside a character, so `sliceTo` and `sliceFrom`
  return `none` there.
* The casts between `i64` and `u32`.
* The `?` operator, and loops that end at the first error.
* `std::time::Instant`, as the nanoseconds of a monotonic clock.
-/

namespace XiaomiProxy

/-! ## Strings -/

namespace Str

/-- The characters with Unicode property `White_Space`, which `trim` strips. -/
def isWhitespace (c : Char) : Bool :=
  let n := c.toNat
  (9 ≤ n && n ≤ 13) || n == 0x20 || n == 0x85 || n == 0xA0 || n == 0x1680 ||
    (0x2000 ≤ n && n ≤ 0x200A) || n == 0x2028 || n == 0x2029 || n == 0x202F ||
    n == 0x205F || n == 0x3000

/-- `str::trim`. -/
def trim (s : String) : String :=
  String.ofList ((s.toList.dropWhile isWhitespace).rdropWhile isWhitespace)

/-- `str::split` at a character: one more piece than there are separators. -/
def split (sep : Char) (s : String) : List String :=
  (s.toList.splitOn sep).map String.ofList

/-- `str::strip_prefix`. -/
def stripPrefix (pre s : String) : Option String :=
  if pre.toList <+: s.toList then some (String.ofList (s.toList.drop pre.length))
  else none

theorem stripPrefix_eq_some_iff {pre s rest : String} :
    stripPrefix pre s = some rest ↔ s = pre ++ rest := by
  rw [stripPrefix, Option.ite_none_right_eq_some, Option.some.injEq]
  constructor
  · rintro ⟨⟨last, hlast⟩, rfl⟩
    rw [← hlast, ← String.length_toList, List.drop_left, ← String.toList_inj,
      String.toList_append, String.toList_ofList, hlast]
  · rintro rfl
    rw [String.toList_append, ← String.length_toList, List.drop_left]
    exact ⟨List.prefix_append _ _, String.ofList_toList⟩

/-- The digits of a `u16` read so far, and those still to read. -/
def parseDigits : ℕ → List Char → Except String ℕ
  | n, [] => .ok n
  | n, c :: cs =>
      if c.isDigit then
        let value := 10 * n + (c.toNat - '0'.toNat)
        if value < 2 ^ 16 then parseDigits value cs
        else .error "number too large to fit in target type"
      else .error "invalid digit found in string"

/-- `str::parse::<u16>`, which allows a plus sign before the digits. -/
def parseU16 (s : String) : Except String UInt16 :=
  match s.toList with
  | [] => .error "cannot parse integer from empty string"
  | ['+'] => .error "invalid digit found in string"
  | '+' :: digits => (parseDigits 0 digits).map UInt16.ofNat
  | digits => (parseDigits 0 digits).map UInt16.ofNat

/-- The characters before byte offset `n`; `none` when `n` is not a character
boundary. -/
def takeBytes : List Char → ℕ → Option (List Char)
  | _, 0 => some []
  | [], _ + 1 => none
  | c :: cs, n + 1 =>
      if c.utf8Size ≤ n + 1 then
        (takeBytes cs (n + 1 - c.utf8Size)).map (c :: ·)
      else none

/-- The characters from byte offset `n` on; `none` when `n` is not a character
boundary. -/
def dropBytes : List Char → ℕ → Option (List Char)
  | cs, 0 => some cs
  | [], _ + 1 => none
  | c :: cs, n + 1 =>
      if c.utf8Size ≤ n + 1 then dropBytes cs (n + 1 - c.utf8Size) else none

/-- `&s[..n]`. -/
def sliceTo (s : String) (n : ℕ) : Option String :=
  (takeBytes s.toList n).map String.ofList

/-- `&s[n..]`. -/
def sliceFrom (s : String) (n : ℕ) : Option String :=
  (dropBytes s.toList n).map String.ofList

/-- A string of white space, or the empty one. -/
def Blank (s : String) : Prop := ∀ c ∈ s.toList, isWhitespace c = true

instance decidableBlank : DecidablePred Blank := fun s =>
  inferInstanceAs (Decidable (∀ c ∈ s.toList, isWhitespace c = true))

/-- Trimming leaves nothing of a string exactly when it is blank. -/
theorem trim_eq_empty {s : String} : trim s = "" ↔ Blank s := by
  rw [Blank, trim, String.ofList_eq_empty_iff, List.rdropWhile_eq_nil_iff]
  constructor
  · intro h
    have hnil : s.toList.dropWhile isWhitespace = [] := by
      by_contra hne
      have hhead := List.head_dropWhile_not isWhitespace hne
      rw [h _ (List.head_mem hne)] at hhead
      exact Bool.noConfusion hhead
    simpa using hnil
  · intro h c hc
    exact h c ((List.dropWhile_suffix isWhitespace).subset hc)

/-- Trimming leaves a string without white space alone. -/
theorem trim_eq_self {s : String} (h : ∀ c ∈ s.toList, isWhitespace c = false) :
    trim s = s := by
  have hstart : s.toList.dropWhile isWhitespace = s.toList := by
    rw [List.dropWhile_eq_self_iff]
    intro hpos
    simp [h _ (List.getElem_mem hpos)]
  have hend : s.toList.rdropWhile isWhitespace = s.toList := by
    rw [List.rdropWhile_eq_self_iff]
    intro hne
    simp [h _ (List.getLast_mem hne)]
  rw [trim, hstart, hend, String.ofList_toList]

/-- A string of one-byte characters. -/
def Ascii (s : String) : Prop := ∀ c ∈ s.toList, c.utf8Size = 1

theorem utf8ByteSize_ofList_of_ascii {cs : List Char} (h : ∀ c ∈ cs, c.utf8Size = 1) :
    (String.ofList cs).utf8ByteSize = cs.length := by
  induction cs with
  | nil => rfl
  | cons c cs ih =>
      rw [List.forall_mem_cons] at h
      rw [String.ofList_cons, String.utf8ByteSize_append, String.utf8ByteSize_singleton, ih h.2,
        h.1, List.length_cons, Nat.add_comm]

theorem takeBytes_of_ascii {cs : List Char} (h : ∀ c ∈ cs, c.utf8Size = 1) {n : ℕ}
    (hn : n ≤ cs.length) : takeBytes cs n = some (cs.take n) := by
  induction cs generalizing n with
  | nil =>
      obtain rfl : n = 0 := Nat.le_zero.mp hn
      rfl
  | cons c cs ih =>
      rw [List.forall_mem_cons] at h
      cases n with
      | zero => rfl
      | succ n =>
          rw [takeBytes, h.1, if_pos (Nat.succ_le_succ (Nat.zero_le n)), Nat.add_sub_cancel,
            ih h.2 (Nat.le_of_succ_le_succ hn)]
          rfl

theorem dropBytes_of_ascii {cs : List Char} (h : ∀ c ∈ cs, c.utf8Size = 1) {n : ℕ}
    (hn : n ≤ cs.length) : dropBytes cs n = some (cs.drop n) := by
  induction cs generalizing n with
  | nil =>
      obtain rfl : n = 0 := Nat.le_zero.mp hn
      rfl
  | cons c cs ih =>
      rw [List.forall_mem_cons] at h
      cases n with
      | zero => rfl
      | succ n =>
          rw [dropBytes, h.1, if_pos (Nat.succ_le_succ (Nat.zero_le n)), Nat.add_sub_cancel,
            ih h.2 (Nat.le_of_succ_le_succ hn)]
          rfl

/-- Every slice of an ASCII string is at character boundaries. -/
theorem sliceTo_of_ascii {s : String} (h : Ascii s) {n : ℕ} (hn : n ≤ s.toList.length) :
    sliceTo s n = some (String.ofList (s.toList.take n)) := by
  rw [sliceTo, takeBytes_of_ascii h hn]
  rfl

theorem sliceFrom_of_ascii {s : String} (h : Ascii s) {n : ℕ} (hn : n ≤ s.toList.length) :
    sliceFrom s n = some (String.ofList (s.toList.drop n)) := by
  rw [sliceFrom, dropBytes_of_ascii h hn]
  rfl

theorem utf8ByteSize_of_ascii {s : String} (h : Ascii s) :
    s.utf8ByteSize = s.toList.length := by
  have hsize := utf8ByteSize_ofList_of_ascii h
  rwa [String.ofList_toList] at hsize

/-- Where a slice may start or end: with so many bytes before. -/
def IsCharBoundary (s : String) (n : ℕ) : Prop :=
  ∃ first last, s = first ++ last ∧ first.utf8ByteSize = n

theorem takeBytes_eq_some_iff {cs first : List Char} {n : ℕ} :
    takeBytes cs n = some first ↔ first <+: cs ∧ (Utf8.encode first).length = n := by
  induction cs, n using takeBytes.induct generalizing first with
  | case1 cs =>
      simp only [takeBytes, Option.some.injEq]
      constructor
      · rintro rfl
        exact ⟨List.nil_prefix, rfl⟩
      · rintro ⟨-, hlength⟩
        cases first with
        | nil => rfl
        | cons c first =>
            rw [Utf8.encode_cons, List.length_append, String.length_utf8EncodeChar] at hlength
            exact absurd c.utf8Size_pos (by omega)
  | case2 n =>
      simp only [takeBytes, reduceCtorEq, false_iff, List.prefix_nil]
      rintro ⟨rfl, hlength⟩
      cases hlength
  | case3 c cs n hle ih =>
      rw [takeBytes, if_pos hle]
      constructor
      · intro h
        obtain ⟨taken, htaken, rfl⟩ := Option.map_eq_some_iff.mp h
        obtain ⟨hpre, hlength⟩ := ih.mp htaken
        refine ⟨(List.prefix_cons_inj c).mpr hpre, ?_⟩
        rw [Utf8.encode_cons, List.length_append, String.length_utf8EncodeChar, hlength]
        omega
      · rintro ⟨hpre, hlength⟩
        cases first with
        | nil => cases hlength
        | cons d taken =>
            obtain ⟨rfl, hrest⟩ := List.cons_prefix_cons.mp hpre
            rw [Utf8.encode_cons, List.length_append, String.length_utf8EncodeChar] at hlength
            exact Option.map_eq_some_iff.mpr ⟨taken, ih.mpr ⟨hrest, by omega⟩, rfl⟩
  | case4 c cs n hlt =>
      rw [takeBytes, if_neg hlt]
      simp only [reduceCtorEq, false_iff]
      rintro ⟨hpre, hlength⟩
      cases first with
      | nil => cases hlength
      | cons d taken =>
          obtain ⟨rfl, -⟩ := List.cons_prefix_cons.mp hpre
          rw [Utf8.encode_cons, List.length_append, String.length_utf8EncodeChar] at hlength
          omega

/-- What is left is what follows the characters that are taken. -/
theorem dropBytes_eq_some_iff {cs last : List Char} {n : ℕ} :
    dropBytes cs n = some last ↔ ∃ first, takeBytes cs n = some first ∧ cs = first ++ last := by
  induction cs, n using dropBytes.induct generalizing last with
  | case1 cs => simp [dropBytes, takeBytes, eq_comm]
  | case2 n => simp [dropBytes, takeBytes]
  | case3 c cs n hle ih =>
      rw [dropBytes, takeBytes, if_pos hle, if_pos hle, ih]
      constructor
      · rintro ⟨first, htaken, rfl⟩
        exact ⟨c :: first, by rw [htaken]; rfl, rfl⟩
      · rintro ⟨first, hfirst, hsplit⟩
        obtain ⟨taken, htaken, rfl⟩ := Option.map_eq_some_iff.mp hfirst
        exact ⟨taken, htaken, (List.cons.inj hsplit).2⟩
  | case4 c cs n hlt => simp [dropBytes, takeBytes, hlt]

/-- A slice is at character boundaries. -/
theorem sliceTo_eq_some_iff {s first : String} {n : ℕ} :
    sliceTo s n = some first ↔ first.utf8ByteSize = n ∧ ∃ last, s = first ++ last := by
  rw [sliceTo, Option.map_eq_some_iff]
  constructor
  · rintro ⟨taken, htaken, rfl⟩
    obtain ⟨⟨rest, hrest⟩, hlength⟩ := takeBytes_eq_some_iff.mp htaken
    rw [← Utf8.length_encode, hlength]
    exact ⟨rfl, String.ofList rest, by
      rw [← String.ofList_append, hrest, String.ofList_toList]⟩
  · rintro ⟨hsize, last, rfl⟩
    refine ⟨first.toList, takeBytes_eq_some_iff.mpr ⟨?_, ?_⟩, String.ofList_toList⟩
    · rw [String.toList_append]
      exact List.prefix_append _ _
    · rw [Utf8.length_encode, String.ofList_toList, hsize]

theorem sliceFrom_eq_some_iff {s last : String} {n : ℕ} :
    sliceFrom s n = some last ↔ ∃ first, s = first ++ last ∧ first.utf8ByteSize = n := by
  rw [sliceFrom, Option.map_eq_some_iff]
  constructor
  · rintro ⟨rest, hrest, rfl⟩
    obtain ⟨first, htaken, hsplit⟩ := dropBytes_eq_some_iff.mp hrest
    refine ⟨String.ofList first, ?_, ?_⟩
    · rw [← String.ofList_append, ← hsplit, String.ofList_toList]
    · rw [← Utf8.length_encode]
      exact (takeBytes_eq_some_iff.mp htaken).2
  · rintro ⟨first, rfl, hsize⟩
    refine ⟨last.toList, dropBytes_eq_some_iff.mpr ⟨first.toList, ?_, ?_⟩,
      String.ofList_toList⟩
    · refine takeBytes_eq_some_iff.mpr ⟨?_, ?_⟩
      · rw [String.toList_append]
        exact List.prefix_append _ _
      · rw [Utf8.length_encode, String.ofList_toList, hsize]
    · rw [String.toList_append]

example : trim " \tkey " = "key" := by decide
example : split ',' "" = [""] := by decide
example : sliceTo "日本語日" 4 = none := by decide

end Str

/-! ## Integers -/

/-- `as i64` of a `u32`. -/
def asI64 (w : UInt32) : Int64 := w.toUInt64.toInt64

/-- `as u32` of an `i64`, which keeps the low 32 bits. -/
def asU32 (w : Int64) : UInt32 := w.toUInt64.toUInt32

theorem asI64_toInt (w : UInt32) : (asI64 w).toInt = w.toNat := by
  have hlt : w.toUInt64.toBitVec.toNat < 2 ^ 32 := by
    simpa using w.toNat_lt
  rw [asI64, ← Int64.toInt_toBitVec, UInt64.toBitVec_toInt64,
    BitVec.toInt_eq_toNat_of_lt (by omega)]
  simp

/-- The cast keeps exactly the integers that fit. -/
theorem asU32_eq_iff (w : Int64) :
    ((asU32 w).toNat : ℤ) = w.toInt ↔ 0 ≤ w.toInt ∧ w.toInt < 2 ^ 32 := by
  have hlow : (asU32 w).toNat = w.toBitVec.toNat % 2 ^ 32 := by
    rw [asU32, UInt64.toNat_toUInt32, ← UInt64.toNat_toBitVec, Int64.toBitVec_toUInt64]
  have hlt := w.toBitVec.isLt
  rw [hlow, ← Int64.toInt_toBitVec, BitVec.toInt_eq_toNat_cond]
  split <;> omega

/-- `as u16` of an `i64`, which keeps the low 16 bits. -/
def asU16 (w : Int64) : UInt16 := w.toUInt64.toUInt16

/-- Both casts bring back what was widened to an `i64`. -/
theorem asU32_asI64 (w : UInt32) : asU32 (asI64 w) = w := by
  rw [asU32, asI64, UInt64.toUInt64_toInt64, UInt32.toUInt32_toUInt64]

theorem asU16_asI64 (w : UInt16) : asU16 (asI64 w.toUInt32) = w := by
  rw [asU16, asI64, UInt64.toUInt64_toInt64, UInt16.toUInt64_toUInt32,
    UInt16.toUInt16_toUInt64]

/-! ## Errors -/

namespace Fallible

variable {ε α β γ : Type} {f : α → Except ε β}

/-- A step that goes on succeeded. -/
theorem bind_eq_ok_iff {x : Except ε α} {b : β} :
    (x >>= f) = .ok b ↔ ∃ a, x = .ok a ∧ f a = .ok b := by
  cases x with
  | error e => exact iff_of_false nofun fun ⟨_, ha, _⟩ => nomatch ha
  | ok a => exact ⟨fun h => ⟨a, rfl, h⟩, fun ⟨_, ha, h⟩ => Except.ok.inj ha ▸ h⟩

theorem mapError_eq_ok_iff {ε' : Type} {g : ε → ε'} {x : Except ε α} {a : α} :
    x.mapError g = .ok a ↔ x = .ok a := by
  cases x with
  | error e => exact iff_of_false nofun nofun
  | ok a' => rw [Except.mapError, Except.ok.injEq, Except.ok.injEq]

theorem isOk_iff {x : Except ε α} : x.isOk = true ↔ ∃ a, x = .ok a := by
  cases x <;> simp [Except.isOk, Except.toBool]

theorem mapM_cons_eq_ok_iff {a : α} {l : List α} {l' : List β} :
    (a :: l).mapM f = .ok l' ↔
      ∃ b, f a = .ok b ∧ ∃ bs, l.mapM f = .ok bs ∧ b :: bs = l' := by
  simp only [List.mapM_cons, bind_eq_ok_iff, pure, Except.pure, Except.ok.injEq]

/-- Steps succeed together if each of them does. -/
theorem exists_mapM_iff {l : List α} :
    (∃ l', l.mapM f = .ok l') ↔ ∀ a ∈ l, ∃ b, f a = .ok b := by
  induction l with
  | nil => exact iff_of_true ⟨[], rfl⟩ (by simp)
  | cons a l ih =>
      rw [List.forall_mem_cons, ← ih]
      constructor
      · rintro ⟨l', hl'⟩
        obtain ⟨b, hb, bs, hbs, -⟩ := mapM_cons_eq_ok_iff.mp hl'
        exact ⟨⟨b, hb⟩, bs, hbs⟩
      · rintro ⟨⟨b, hb⟩, bs, hbs⟩
        exact ⟨b :: bs, mapM_cons_eq_ok_iff.mpr ⟨b, hb, bs, hbs, rfl⟩⟩

/-- A result is that of one of the steps. -/
theorem exists_of_mem_mapM {l : List α} {l' : List β} (h : l.mapM f = .ok l') {b : β}
    (hb : b ∈ l') : ∃ a ∈ l, f a = .ok b := by
  induction l generalizing l' with
  | nil =>
      cases h
      simp at hb
  | cons a l ih =>
      obtain ⟨b', hb', bs, hbs, rfl⟩ := mapM_cons_eq_ok_iff.mp h
      rcases List.mem_cons.mp hb with rfl | hb
      · exact ⟨a, List.mem_cons_self, hb'⟩
      · obtain ⟨a', ha', hfa'⟩ := ih hbs hb
        exact ⟨a', List.mem_cons_of_mem a ha', hfa'⟩

/-- What every step keeps, they keep in order. -/
theorem map_mapM {g : α → γ} {g' : β → γ} (hkeep : ∀ a b, f a = .ok b → g' b = g a)
    {l : List α} {l' : List β} (h : l.mapM f = .ok l') : l'.map g' = l.map g := by
  induction l generalizing l' with
  | nil =>
      cases h
      rfl
  | cons a l ih =>
      obtain ⟨b, hb, bs, hbs, rfl⟩ := mapM_cons_eq_ok_iff.mp h
      rw [List.map_cons, List.map_cons, hkeep a b hb, ih hbs]

end Fallible

/-! ## Time -/

/-- A reading of the monotonic clock, in nanoseconds. -/
abbrev Instant := ℕ

/-- A length of time, in nanoseconds.  `Instant::duration_since` is subtraction
on `ℕ`: the time since a later instant is zero. -/
abbrev Duration := ℕ

namespace Duration

def fromSecs (n : ℕ) : Duration := n * 1000000000

/-- `Duration::as_secs_f64`, read as an exact number of seconds. -/
def asSecs (d : Duration) : ℚ := d / 1000000000

end Duration

end XiaomiProxy
