import Mathlib

/-!
# Base64

The standard alphabet with padding: three bytes become four symbols, and one or two
bytes at the end become two or three symbols and a padding up to four.

* `encode` — of any bytes.
* `decode` — of a text that `encode` can produce, and of no other: the length is a
  multiple of four, the padding is complete, and the bits beyond the last byte are zero.

`decode_eq_some_iff` says that the two are inverse to each other; so `encode` is
injective.
-/

namespace Base64

/-- The symbols of the numbers below 64. -/
def alphabet : List Char :=
  "ABCDEFGHIJKLMNOPQRSTUVWXYZabcdefghijklmnopqrstuvwxyz0123456789+/".toList

def symbol (n : ℕ) : Char := alphabet.getD n 'A'

/-- The number of a symbol. -/
def value (c : Char) : Option ℕ := alphabet.idxOf? c

def padding : Char := '='

/-- The symbols of bytes, as characters. -/
def symbols : List UInt8 → List Char
  | [] => []
  | [a] => [symbol (a.toNat / 4), symbol (a.toNat % 4 * 16), padding, padding]
  | [a, b] =>
      [symbol (a.toNat / 4), symbol (a.toNat % 4 * 16 + b.toNat / 16),
        symbol (b.toNat % 16 * 4), padding]
  | a :: b :: c :: rest =>
      symbol (a.toNat / 4) :: symbol (a.toNat % 4 * 16 + b.toNat / 16)
        :: symbol (b.toNat % 16 * 4 + c.toNat / 64) :: symbol (c.toNat % 64)
        :: symbols rest

/-- The last four symbols, when there is padding among them. -/
def lastBytes (s₀ s₁ : ℕ) (c₂ : Char) : Option (List UInt8) :=
  if c₂ = padding then
    if s₁ % 16 = 0 then some [UInt8.ofNat (s₀ * 4 + s₁ / 16)] else none
  else do
    let s₂ ← value c₂
    if s₂ % 4 = 0 then
      some [UInt8.ofNat (s₀ * 4 + s₁ / 16), UInt8.ofNat (s₁ % 16 * 16 + s₂ / 4)]
    else none

/-- The bytes of symbols. -/
def bytes : List Char → Option (List UInt8)
  | [] => some []
  | c₀ :: c₁ :: c₂ :: c₃ :: rest => do
      let s₀ ← value c₀
      let s₁ ← value c₁
      if c₃ = padding then
        if rest = [] then lastBytes s₀ s₁ c₂ else none
      else
        let s₂ ← value c₂
        let s₃ ← value c₃
        let bs ← bytes rest
        return UInt8.ofNat (s₀ * 4 + s₁ / 16) :: UInt8.ofNat (s₁ % 16 * 16 + s₂ / 4)
          :: UInt8.ofNat (s₂ % 4 * 64 + s₃) :: bs
  | _ => none

def encode (bs : List UInt8) : String := String.ofList (symbols bs)

def decode (s : String) : Option (List UInt8) := bytes s.toList

/-! ## Symbols -/

theorem value_symbol {n : ℕ} (h : n < 64) : value (symbol n) = some n := by
  have hall : ∀ n : Fin 64, value (symbol n) = some (n : ℕ) := by decide +kernel
  exact hall ⟨n, h⟩

theorem symbol_ne_padding {n : ℕ} (h : n < 64) : symbol n ≠ padding := by
  have hall : ∀ n : Fin 64, symbol n ≠ padding := by decide +kernel
  exact hall ⟨n, h⟩

theorem value_eq_some_iff {c : Char} {n : ℕ} :
    value c = some n ↔ n < 64 ∧ c = symbol n := by
  constructor
  · intro h
    obtain ⟨hlt, hget, -⟩ := List.idxOf?_eq_some_iff.mp h
    refine ⟨hlt, ?_⟩
    rw [symbol, List.getD_eq_getElem _ _ hlt, hget]
  · rintro ⟨hlt, rfl⟩
    exact value_symbol hlt

/-- What a number is written with. -/
theorem symbol_mem (n : ℕ) : symbol n ∈ alphabet := by
  rw [symbol]
  by_cases h : n < alphabet.length
  · rw [List.getD_eq_getElem _ _ h]
    exact List.getElem_mem h
  · rw [List.getD_eq_default _ _ (Nat.le_of_not_lt h)]
    decide

/-- What bytes are written with. -/
theorem mem_symbols {bs : List UInt8} {c : Char} (h : c ∈ symbols bs) :
    c ∈ padding :: alphabet := by
  have hsymbol : ∀ n, symbol n ∈ padding :: alphabet :=
    fun n => List.mem_cons_of_mem _ (symbol_mem n)
  have hpadding : padding ∈ padding :: alphabet := List.mem_cons_self
  induction bs using symbols.induct with
  | case1 => cases h
  | case2 a =>
      simp only [symbols, List.mem_cons, List.not_mem_nil, or_false] at h
      rcases h with rfl | rfl | rfl | rfl
      · exact hsymbol _
      · exact hsymbol _
      · exact hpadding
      · exact hpadding
  | case3 a b =>
      simp only [symbols, List.mem_cons, List.not_mem_nil, or_false] at h
      rcases h with rfl | rfl | rfl | rfl
      · exact hsymbol _
      · exact hsymbol _
      · exact hsymbol _
      · exact hpadding
  | case4 a b c' rest ih =>
      simp only [symbols, List.mem_cons] at h
      rcases h with rfl | rfl | rfl | rfl | hrest
      · exact hsymbol _
      · exact hsymbol _
      · exact hsymbol _
      · exact hsymbol _
      · exact ih hrest

/-! ## There and back -/

section Bytes

variable (a b c : UInt8)

theorem ofNat_eq {n : ℕ} (h : n = a.toNat) : UInt8.ofNat n = a := by
  rw [h]
  exact UInt8.ofNat_toNat

theorem first_byte : UInt8.ofNat (a.toNat / 4 * 4 + a.toNat % 4 * 16 / 16) = a :=
  ofNat_eq a (by omega)

theorem first_of_two :
    UInt8.ofNat (a.toNat / 4 * 4 + (a.toNat % 4 * 16 + b.toNat / 16) / 16) = a := by
  have hb := b.toNat_lt
  exact ofNat_eq a (by omega)

theorem second_byte :
    UInt8.ofNat ((a.toNat % 4 * 16 + b.toNat / 16) % 16 * 16 + b.toNat % 16 * 4 / 4) = b := by
  have hb := b.toNat_lt
  exact ofNat_eq b (by omega)

theorem second_of_three :
    UInt8.ofNat ((a.toNat % 4 * 16 + b.toNat / 16) % 16 * 16
      + (b.toNat % 16 * 4 + c.toNat / 64) / 4) = b := by
  have hb := b.toNat_lt
  have hc := c.toNat_lt
  exact ofNat_eq b (by omega)

theorem third_byte :
    UInt8.ofNat ((b.toNat % 16 * 4 + c.toNat / 64) % 4 * 64 + c.toNat % 64) = c := by
  have hc := c.toNat_lt
  exact ofNat_eq c (by omega)

end Bytes

/-- What was encoded is decoded. -/
theorem bytes_symbols (bs : List UInt8) : bytes (symbols bs) = some bs := by
  induction bs using symbols.induct with
  | case1 => rfl
  | case2 a =>
      have ha := a.toNat_lt
      have h₀ := value_symbol (n := a.toNat / 4) (by omega)
      have h₁ := value_symbol (n := a.toNat % 4 * 16) (by omega)
      have hmod : a.toNat % 4 * 16 % 16 = 0 := by omega
      simp only [symbols, bytes, lastBytes, h₀, h₁, hmod, Option.bind_eq_bind,
        Option.bind_some, if_true, first_byte]
  | case3 a b =>
      have ha := a.toNat_lt
      have hb := b.toNat_lt
      have h₀ := value_symbol (n := a.toNat / 4) (by omega)
      have h₁ := value_symbol (n := a.toNat % 4 * 16 + b.toNat / 16) (by omega)
      have h₂ := value_symbol (n := b.toNat % 16 * 4) (by omega)
      have hp := symbol_ne_padding (n := b.toNat % 16 * 4) (by omega)
      have hmod : b.toNat % 16 * 4 % 4 = 0 := by omega
      simp only [symbols, bytes, lastBytes, h₀, h₁, h₂, hp, hmod, Option.bind_eq_bind,
        Option.bind_some, if_true, if_false, first_of_two, second_byte]
  | case4 a b c rest ih =>
      have ha := a.toNat_lt
      have hb := b.toNat_lt
      have hc := c.toNat_lt
      have h₀ := value_symbol (n := a.toNat / 4) (by omega)
      have h₁ := value_symbol (n := a.toNat % 4 * 16 + b.toNat / 16) (by omega)
      have h₂ := value_symbol (n := b.toNat % 16 * 4 + c.toNat / 64) (by omega)
      have h₃ := value_symbol (n := c.toNat % 64) (by omega)
      have hp := symbol_ne_padding (n := c.toNat % 64) (by omega)
      simp only [symbols, bytes, h₀, h₁, h₂, h₃, hp, ih, Option.bind_eq_bind,
        Option.bind_some, if_false, first_of_two, second_of_three, third_byte, pure]

theorem toNat_ofNat {n : ℕ} (h : n < 256) : (UInt8.ofNat n).toNat = n :=
  UInt8.toNat_ofNat_of_lt' h

/-- The last bytes were encoded with padding. -/
theorem symbols_of_lastBytes {s₀ s₁ : ℕ} {c₂ : Char} {bs : List UInt8} (h₀ : s₀ < 64)
    (h₁ : s₁ < 64) (h : lastBytes s₀ s₁ c₂ = some bs) :
    symbols bs = [symbol s₀, symbol s₁, c₂, padding] := by
  have hfirst : (UInt8.ofNat (s₀ * 4 + s₁ / 16)).toNat = s₀ * 4 + s₁ / 16 :=
    toNat_ofNat (by omega)
  unfold lastBytes at h
  split at h
  · rename_i hpad
    split at h
    · rename_i hzero
      obtain rfl := Option.some.inj h
      rw [symbols, hfirst, hpad, show (s₀ * 4 + s₁ / 16) / 4 = s₀ by omega,
        show (s₀ * 4 + s₁ / 16) % 4 * 16 = s₁ by omega]
    · cases h
  · obtain ⟨s₂, hvalue, hlast⟩ := Option.bind_eq_some_iff.mp h
    obtain ⟨h₂, hc₂⟩ := value_eq_some_iff.mp hvalue
    have hsecond : (UInt8.ofNat (s₁ % 16 * 16 + s₂ / 4)).toNat = s₁ % 16 * 16 + s₂ / 4 :=
      toNat_ofNat (by omega)
    split at hlast
    · rename_i hzero
      obtain rfl := Option.some.inj hlast
      rw [symbols, hfirst, hsecond, hc₂, show (s₀ * 4 + s₁ / 16) / 4 = s₀ by omega,
        show (s₀ * 4 + s₁ / 16) % 4 * 16 + (s₁ % 16 * 16 + s₂ / 4) / 16 = s₁ by omega,
        show (s₁ % 16 * 16 + s₂ / 4) % 16 * 4 = s₂ by omega]
    · cases hlast

/-- What is decoded was encoded. -/
theorem symbols_of_bytes {cs : List Char} {bs : List UInt8} (h : bytes cs = some bs) :
    symbols bs = cs := by
  induction cs using bytes.induct generalizing bs with
  | case1 =>
      cases h
      rfl
  | case2 c₀ c₁ c₂ c₃ rest ih =>
      rw [bytes] at h
      obtain ⟨s₀, hvalue₀, hafter₀⟩ := Option.bind_eq_some_iff.mp h
      obtain ⟨s₁, hvalue₁, hafter₁⟩ := Option.bind_eq_some_iff.mp hafter₀
      obtain ⟨h₀, hc₀⟩ := value_eq_some_iff.mp hvalue₀
      obtain ⟨h₁, hc₁⟩ := value_eq_some_iff.mp hvalue₁
      split at hafter₁
      · rename_i hpad
        split at hafter₁
        · rename_i hend
          rw [symbols_of_lastBytes h₀ h₁ hafter₁, hpad, hend, hc₀, hc₁]
        · cases hafter₁
      · obtain ⟨s₂, hvalue₂, hafter₂⟩ := Option.bind_eq_some_iff.mp hafter₁
        obtain ⟨s₃, hvalue₃, hafter₃⟩ := Option.bind_eq_some_iff.mp hafter₂
        obtain ⟨h₂, hc₂⟩ := value_eq_some_iff.mp hvalue₂
        obtain ⟨h₃, hc₃⟩ := value_eq_some_iff.mp hvalue₃
        obtain ⟨left, hrest, hbytes⟩ := Option.bind_eq_some_iff.mp hafter₃
        obtain rfl := Option.some.inj hbytes
        rw [symbols, ih hrest, toNat_ofNat (by omega), toNat_ofNat (by omega),
          toNat_ofNat (by omega), hc₀, hc₁, hc₂, hc₃, show (s₀ * 4 + s₁ / 16) / 4 = s₀ by omega,
          show (s₀ * 4 + s₁ / 16) % 4 * 16 + (s₁ % 16 * 16 + s₂ / 4) / 16 = s₁ by omega,
          show (s₁ % 16 * 16 + s₂ / 4) % 16 * 4 + (s₂ % 4 * 64 + s₃) / 64 = s₂ by omega,
          show (s₂ % 4 * 64 + s₃) % 64 = s₃ by omega]
  | case3 cs hnil hfour =>
      rw [bytes] at h
      · cases h
      · exact hnil
      · exact hfour

theorem decode_eq_some_iff {s : String} {bs : List UInt8} :
    decode s = some bs ↔ encode bs = s := by
  constructor
  · intro h
    rw [encode, symbols_of_bytes h, String.ofList_toList]
  · rintro rfl
    rw [decode, encode, String.toList_ofList]
    exact bytes_symbols bs

theorem encode_injective : Function.Injective encode := by
  intro bs bs' h
  have hdecode := decode_eq_some_iff.mpr h
  exact Option.some.inj (hdecode.symm.trans (decode_eq_some_iff.mpr rfl))

end Base64
