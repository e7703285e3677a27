import XiaomiProxy.Handlers.Admin

/-!
# Masks of keys

`Config::mask_key` shows four bytes of a key at either end.  It cuts the key by byte
offsets, so it panics on a key that has a character across one of the cuts; a key is
`Sliceable` if it has none.

The mask is taken where a key was just marked unhealthy, and in the listing of the pool.
`masksEveryKey_iff` says that what the state does with masks goes well exactly if every
key it holds is sliceable.
-/

namespace XiaomiProxy

structure KeyStats where
  key : String
  actualKey : String
  weight : UInt32
  healthy : Bool
  requestCount : UInt32
  consecutiveErrors : UInt32
  deriving DecidableEq, Repr

namespace KeyPool

/-- `KeyPool::key_stats`; `none` when the mask of a key panics. -/
def keyStats (p : KeyPool) : Option (List KeyStats) :=
  p.keys.cells.mapM fun k => (Config.maskKey k.val.key).map fun masked =>
    { key := masked
      actualKey := k.val.key
      weight := k.val.weight
      healthy := k.val.healthy
      requestCount := k.val.requestCount
      consecutiveErrors := k.val.consecutiveErrors }

/-- `KeyPool::key_count`. -/
def keyCount (p : KeyPool) : ℕ := p.keys.cells.length

/-- `KeyPool::healthy_key_count`. -/
def healthyKeyCount (p : KeyPool) : ℕ := p.healthyKeys.length

end KeyPool

/-! ## One key -/

namespace Config

/-- A key that is cut between characters. -/
def Sliceable (key : String) : Prop :=
  8 < key.utf8ByteSize →
    Str.IsCharBoundary key 4 ∧ Str.IsCharBoundary key (key.utf8ByteSize - 4)

/-- The bytes of a key. -/
def bytes (key : String) : Bytes := Utf8.encode key.toList

section Mask

variable {key key' masked masked' : String}

theorem maskKey_of_short (h : key.utf8ByteSize ≤ 8) : maskKey key = some "***" := by
  rw [maskKey, if_pos h]

/-- The mask of a long key is made of its two slices. -/
theorem maskKey_eq_some_iff (hlong : 8 < key.utf8ByteSize) :
    maskKey key = some masked ↔
      ∃ first last, Str.sliceTo key 4 = some first ∧
        Str.sliceFrom key (key.utf8ByteSize - 4) = some last ∧
        masked = first ++ "..." ++ last := by
  unfold maskKey
  rw [if_neg (not_le.mpr hlong)]
  cases Str.sliceTo key 4 <;> cases Str.sliceFrom key (key.utf8ByteSize - 4) <;>
    simp [eq_comm]

/-- **A key has a mask exactly if it is sliceable.** -/
theorem maskKey_isSome_iff : (∃ masked, maskKey key = some masked) ↔ Sliceable key := by
  unfold Sliceable
  rcases Nat.lt_or_ge 8 key.utf8ByteSize with hlong | hshort
  · simp only [maskKey_eq_some_iff hlong, Str.sliceTo_eq_some_iff,
      Str.sliceFrom_eq_some_iff, Str.IsCharBoundary]
    constructor
    · rintro ⟨masked, first, last, ⟨hsize, rest, hfirst⟩, ⟨front, hlast, hfront⟩, -⟩ -
      exact ⟨⟨first, rest, hfirst, hsize⟩, ⟨front, last, hlast, hfront⟩⟩
    · intro h
      obtain ⟨⟨first, rest, hfirst, hsize⟩, ⟨front, last, hlast, hfront⟩⟩ := h hlong
      exact ⟨_, first, last, ⟨hsize, rest, hfirst⟩, ⟨front, hlast, hfront⟩, rfl⟩
  · exact iff_of_true ⟨_, maskKey_of_short hshort⟩ fun hlong => absurd hlong (by omega)

theorem bytes_append (first last : String) :
    bytes (first ++ last) = bytes first ++ bytes last := by
  rw [bytes, String.toList_append, Utf8.encode_append]
  rfl

theorem length_bytes (key : String) : (bytes key).length = key.utf8ByteSize := by
  rw [bytes, Utf8.length_encode, String.ofList_toList]

theorem bytes_injective : Function.Injective bytes := fun _ _ h =>
  String.toList_injective (Utf8.encode_injective h)

/-- **A mask shows eight bytes.**  Two long keys that agree on them have one mask. -/
theorem maskKey_eq_of_bytes (hlong : 8 < key.utf8ByteSize) (hlong' : 8 < key'.utf8ByteSize)
    (hfirst : (bytes key).take 4 = (bytes key').take 4)
    (hlast : (bytes key).drop (key.utf8ByteSize - 4)
      = (bytes key').drop (key'.utf8ByteSize - 4))
    (hmask : maskKey key = some masked) (hmask' : maskKey key' = some masked') :
    masked = masked' := by
  -- what the slices are is read off the bytes of the key
  have hslices : ∀ {k m : String}, 8 < k.utf8ByteSize → maskKey k = some m →
      ∃ first last, bytes first = (bytes k).take 4 ∧
        bytes last = (bytes k).drop (k.utf8ByteSize - 4) ∧ m = first ++ "..." ++ last := by
    intro k m hk hm
    obtain ⟨first, last, hto, hfrom, rfl⟩ := (maskKey_eq_some_iff hk).mp hm
    obtain ⟨hsize, rest, hrest⟩ := Str.sliceTo_eq_some_iff.mp hto
    obtain ⟨front, hfront, hsize'⟩ := Str.sliceFrom_eq_some_iff.mp hfrom
    refine ⟨first, last, ?_, ?_, rfl⟩
    · have hsplit := congrArg bytes hrest
      rw [bytes_append] at hsplit
      rw [hsplit, ← hsize, ← length_bytes, List.take_left]
    · have hsplit := congrArg bytes hfront
      rw [bytes_append] at hsplit
      rw [hsplit, ← hsize', ← length_bytes, List.drop_left]
  obtain ⟨first, last, hf, hl, rfl⟩ := hslices hlong hmask
  obtain ⟨first', last', hf', hl', rfl⟩ := hslices hlong' hmask'
  rw [bytes_injective (hf.trans (hfirst.trans hf'.symm)),
    bytes_injective (hl.trans (hlast.trans hl'.symm))]

end Mask

/-- Masks of keys come back, hide short keys, and show no more than eight bytes of long
ones. -/
structure Masks (keys : Set String) : Prop where
  total : ∀ key ∈ keys, ∃ masked, maskKey key = some masked
  short : ∀ key ∈ keys, key.utf8ByteSize ≤ 8 → maskKey key = some "***"
  long : ∀ key ∈ keys, ∀ key' ∈ keys, 8 < key.utf8ByteSize → 8 < key'.utf8ByteSize →
    (bytes key).take 4 = (bytes key').take 4 →
    (bytes key).drop (key.utf8ByteSize - 4) = (bytes key').drop (key'.utf8ByteSize - 4) →
    maskKey key = maskKey key'

theorem masks_iff {keys : Set String} : Masks keys ↔ ∀ key ∈ keys, Sliceable key := by
  constructor
  · intro h key hkey
    exact maskKey_isSome_iff.mp (h.total key hkey)
  · intro h
    refine ⟨fun key hkey => maskKey_isSome_iff.mpr (h key hkey),
      fun key _ hshort => maskKey_of_short hshort, ?_⟩
    intro key hkey key' hkey' hlong hlong' hfirst hlast
    obtain ⟨masked, hmask⟩ := maskKey_isSome_iff.mpr (h key hkey)
    obtain ⟨masked', hmask'⟩ := maskKey_isSome_iff.mpr (h key' hkey')
    rw [hmask, hmask', maskKey_eq_of_bytes hlong hlong' hfirst hlast hmask hmask']

end Config

/-! ## The keys of a state -/

namespace KeyPool

variable {p : KeyPool}

/-- The listing of a pool takes every mask. -/
theorem keyStats_isSome_iff : (∃ stats, p.keyStats = some stats) ↔
    ∀ k ∈ p.keys.cells, Config.Sliceable k.val.key := by
  unfold keyStats
  induction p.keys.cells with
  | nil => simp
  | cons k cells ih =>
      rw [List.forall_mem_cons, ← ih, ← Config.maskKey_isSome_iff, List.mapM_cons]
      cases Config.maskKey k.val.key with
      | none => simp
      | some masked => simp [Option.bind_eq_some_iff]

/-- A failure that trips an entry with a sliceable key leaves its recovery task. -/
theorem reportFailure_spawns {now : Instant} {acquired : AcquiredKey} {k : Cell PooledKey}
    (hkey : p.entryOf? acquired.key = some k) (htrip : 3 ≤ k.val.consecutiveErrors + 1)
    (hsliceable : Config.Sliceable k.val.key) :
    (p.reportFailure now acquired).2 = some () ∧
      { ptr := k.ptr, due := now + cooldown } ∈ (p.reportFailure now acquired).1.tasks := by
  obtain ⟨masked, hmask⟩ := Config.maskKey_isSome_iff.mpr hsliceable
  rw [reportFailure_of_le hkey htrip, hmask]
  exact ⟨rfl, List.mem_append_right _ (List.mem_singleton_self _)⟩

end KeyPool

namespace AppState

/-- The keys a state holds in memory. -/
def storedKeys (state : AppState) : Set String :=
  {key | key ∈ state.clientKeys ∨ ∃ k ∈ state.keyPool.keys.cells, k.val.key = key}

/-- Whatever the state does with the masks of its keys comes back: the masks themselves,
a failure that marks a key unhealthy, which goes on to its recovery task, and the listing
of the pool. -/
structure MasksEveryKey (state : AppState) : Prop where
  masks : Config.Masks state.storedKeys
  spawns : ∀ now acquired k, state.keyPool.entryOf? acquired.key = some k →
    3 ≤ k.val.consecutiveErrors + 1 →
    (state.keyPool.reportFailure now acquired).2 = some () ∧
      { ptr := k.ptr, due := now + KeyPool.cooldown } ∈
        (state.keyPool.reportFailure now acquired).1.tasks
  lists : ∃ stats, state.keyPool.keyStats = some stats

/-- **Masks go well exactly if every key is sliceable.** -/
theorem masksEveryKey_iff (state : AppState) :
    MasksEveryKey state ↔ ∀ key ∈ state.storedKeys, Config.Sliceable key := by
  constructor
  · intro h
    exact Config.masks_iff.mp h.masks
  · intro h
    have hpool : ∀ k ∈ state.keyPool.keys.cells, Config.Sliceable k.val.key :=
      fun k hk => h k.val.key (Or.inr ⟨k, hk, rfl⟩)
    refine ⟨Config.masks_iff.mpr h, ?_, KeyPool.keyStats_isSome_iff.mpr hpool⟩
    intro now acquired k hkey htrip
    exact KeyPool.reportFailure_spawns hkey htrip (hpool k (KeyPool.entryOf?_mem hkey))

/-- The administrator adds a key of four characters, with one of them across the first
cut. -/
theorem not_masksEveryKey_of_wide_key :
    ¬ MasksEveryKey (Admin.addDownstreamKey (.ok "now") { key := "日本語日", weight := 1 }
      { config := Config.withoutFile
        keyPool := KeyPool.new []
        rateLimiter := RateLimiter.new 60 60
        db := .empty
        clientKeys := ∅ }).1 := by
  intro h
  obtain ⟨masked, hmask⟩ := h.masks.total "日本語日" (Or.inr (by
    refine ⟨⟨0, PooledKey.fresh "日本語日" 1⟩, ?_, rfl⟩
    decide +kernel))
  have hpanic : Config.maskKey "日本語日" = none := by decide
  rw [hpanic] at hmask
  cases hmask

end AppState

end XiaomiProxy
