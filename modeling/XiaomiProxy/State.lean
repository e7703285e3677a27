import XiaomiProxy.Proxy.KeyPool
import XiaomiProxy.Proxy.RateLimiter
import XiaomiProxy.Storage.Db

/-!
# The application state

`AppState` of `state.rs` and how `AppState::new` builds it: it reads the two key
tables, seeds a table that is empty from the configuration, and keeps the client keys
and the downstream keys in memory.

A start can fail at any statement.  It then leaves through `?`, and the database keeps
what was seeded until then; `new` says so by returning the database it leaves behind
with its error.
-/

namespace XiaomiProxy

structure AppState where
  config : Config
  keyPool : KeyPool
  rateLimiter : RateLimiter
  db : Db
  clientKeys : Finset String

/-- What the outside makes of one start: of the steps before the first query (the HTTP
client, the directory of the database, the connection and the schema), of the two
queries and of the seeding statements; and how the database that was opened gives its
texts back. -/
structure Boot where
  opened : Except String Unit
  reading : TextReading
  getClientKeys : Except String (Db.NewestFirst ClientKeyModel.createdAt)
  addClientKey : ℕ → Db.Reply
  getDownstreamKeys : Except String (Db.NewestFirst DownstreamKeyModel.createdAt)
  addDownstreamKey : ℕ → Db.Reply

/-- A start with a local database in which everything succeeds. -/
def Boot.succeeding (now : String) : Boot where
  opened := .ok ()
  reading := .toFirstNul
  getClientKeys := .ok (Db.newestFirst _)
  addClientKey _ := .ok now
  getDownstreamKeys := .ok (Db.newestFirst _)
  addDownstreamKey _ := .ok now

namespace AppState

section Seed

variable {α β : Type}

/-- A seeding loop: add the entries of a configured list one by one, keeping them in
memory, and leave at the first error. -/
def seed (add : ℕ → Db → α → Db × Except String Unit) (keep : β → α → β) :
    ℕ → List α → Db → β → Except (Db × String) (Db × β)
  | _, [], db, kept => .ok (db, kept)
  | n, a :: rest, db, kept =>
      match add n db a with
      | (db, .error e) => .error (db, e)
      | (db, .ok ()) => seed add keep (n + 1) rest db (keep kept a)

end Seed

/-- The first part of `AppState::new`: seed the client keys if the table is empty, and
load them into the cache. -/
def loadClientKeys (boot : Boot) (config : Config) (db : Db) :
    Except (Db × String) (Db × Finset String) :=
  match db.getClientKeys boot.reading boot.getClientKeys with
  | .error e => .error (db, e)
  | .ok dbClientKeys =>
      if dbClientKeys.isEmpty && !config.clientKeys.isEmpty then
        -- the configured keys are taken as they are, blank or not
        seed (fun n db ck =>
            db.addClientKey (boot.addClientKey n) ck.key (some "Imported from config") none)
          (fun clientKeysSet ck => insert ck.key clientKeysSet)
          0 config.clientKeys db ∅
      else
        .ok (db, dbClientKeys.foldl (fun clientKeysSet ck => insert ck.key clientKeysSet) ∅)

/-- The second part of `AppState::new`: seed the downstream keys if the table is empty,
and list them for the key pool. -/
def loadDownstreamKeys (boot : Boot) (config : Config) (db : Db) :
    Except (Db × String) (Db × List DownstreamKeyConfig) :=
  match db.getDownstreamKeys boot.reading boot.getDownstreamKeys with
  | .error e => .error (db, e)
  | .ok dbDownstreamKeys =>
      if dbDownstreamKeys.isEmpty && !config.downstreamKeys.isEmpty then
        seed (fun n db dk =>
            db.addDownstreamKey (boot.addDownstreamKey n) dk.key (asI64 dk.weight))
          (fun downstreamKeysList dk => downstreamKeysList ++ [dk])
          0 config.downstreamKeys db []
      else
        .ok (db, dbDownstreamKeys.map fun dk =>
          { key := dk.key, weight := asU32 dk.weight })

/-- `AppState::new`. -/
def new (boot : Boot) (config : Config) (db : Db) : Except (Db × String) AppState := do
  let () ← boot.opened.mapError fun e => (db, e)
  let (db, clientKeys) ← loadClientKeys boot config db
  let (db, downstreamKeys) ← loadDownstreamKeys boot config db
  return {
    config
    keyPool := KeyPool.new downstreamKeys
    rateLimiter := RateLimiter.new config.rateLimit.requestsPerMinute
      config.rateLimit.burstSize
    db
    clientKeys }

/-- The database a start leaves behind. -/
def leftDb {α : Type} (db : α → Db) : Except (Db × String) α → Db
  | .error (left, _) => left
  | .ok a => db a

/-! ## What seeding keeps -/

section Seed

variable {α β : Type} {add : ℕ → Db → α → Db × Except String Unit} {keep : β → α → β}
  {n : ℕ} {as : List α} {db db' : Db} {kept kept' : β}

/-- What every successful addition keeps, of the database and of the entries kept so
far, holds at the end of a seeding that succeeds. -/
theorem seed_ok_invariant {I : Db → β → Prop}
    (hstep : ∀ n db db' kept a, a ∈ as → I db kept → add n db a = (db', .ok ()) →
      I db' (keep kept a))
    (hstart : I db kept) (h : seed add keep n as db kept = .ok (db', kept')) :
    I db' kept' := by
  induction as generalizing n db kept with
  | nil =>
      cases h
      exact hstart
  | cons a rest ih =>
      rw [seed] at h
      split at h
      · cases h
      · rename_i next hadd
        refine ih (fun n db db' kept b hb => ?_) ?_ h
        · exact hstep n db db' kept b (List.mem_cons_of_mem a hb)
        · exact hstep n db next kept a List.mem_cons_self hstart hadd

/-- A seeding that succeeds has kept the whole list. -/
theorem seed_ok_kept (h : seed add keep n as db kept = .ok (db', kept')) :
    kept' = as.foldl keep kept := by
  induction as generalizing n db kept with
  | nil =>
      cases h
      rfl
  | cons a rest ih =>
      rw [seed] at h
      split at h
      · cases h
      · exact ih h

/-- What every addition keeps of the database holds wherever a seeding stops. -/
theorem seed_leftDb_invariant {P : Db → Prop}
    (hstep : ∀ n db a, a ∈ as → P db → P (add n db a).1) (hstart : P db) :
    P (leftDb Prod.fst (seed add keep n as db kept)) := by
  induction as generalizing n db kept with
  | nil => exact hstart
  | cons a rest ih =>
      have hnext := hstep n db a List.mem_cons_self hstart
      rw [seed]
      split <;> rename_i hadd <;> rw [hadd] at hnext
      · exact hnext
      · exact ih (fun n db b hb => hstep n db b (List.mem_cons_of_mem a hb)) hnext

end Seed

section Load

variable {boot : Boot} {config : Config} {db db' : Db}

theorem mem_foldl_insert {α : Type} (f : α → String) (l : List α) (s : Finset String)
    (k : String) :
    k ∈ l.foldl (fun s a => insert (f a) s) s ↔ k ∈ s ∨ k ∈ l.map f := by
  induction l generalizing s with
  | nil => simp
  | cons a l ih =>
      rw [List.foldl_cons, ih, Finset.mem_insert, List.map_cons, List.mem_cons]
      tauto

/-- Seeding an empty table leaves the cache and the table with the same keys. -/
theorem loadClientKeys_seeded {clientKeys : Finset String} (hempty : db.clientKeys.rows = [])
    (h : loadClientKeys boot config db = .ok (db', clientKeys)) (k : String) :
    (k ∈ clientKeys ↔ k ∈ db'.clientKeys.keys) ∧
      (k ∈ clientKeys ↔ k ∈ config.clientKeys.map ClientKeyConfig.key) := by
  unfold loadClientKeys at h
  cases hrows : db.getClientKeys boot.reading boot.getClientKeys with
  | error e => simp [hrows] at h
  | ok rows =>
      have hperm := Db.getClientKeys_perm hrows
      rw [hempty] at hperm
      obtain rfl : rows = [] := hperm.eq_nil
      have hkeys : db.clientKeys.keys = [] := by
        rw [KeyedTable.keys, hempty, List.map_nil]
      simp only [hrows] at h
      split at h
      · constructor
        · refine seed_ok_invariant
            (I := fun db₁ set => ∀ k, k ∈ set ↔ k ∈ db₁.clientKeys.keys)
            ?_ (by simp [hkeys]) h k
          -- one seeding statement adds its key to the table and to the cache
          rintro n db₁ db₂ set ck - hset hadd k
          obtain ⟨now, -, rfl⟩ := Db.execute_eq_ok.mp hadd
          rw [Finset.mem_insert, hset, KeyedTable.mem_keys_insertOrReplace]
        · rw [seed_ok_kept h, mem_foldl_insert]
          simp
      · rename_i hseed
        have hconfig : config.clientKeys = [] := by simpa using hseed
        cases h
        simp [hconfig, hkeys]

/-- Loading a table that is not empty leaves it as it is, and fills the cache with what is
read of it. -/
theorem loadClientKeys_loaded {clientKeys : Finset String} (hrows : db.clientKeys.rows ≠ [])
    (h : loadClientKeys boot config db = .ok (db', clientKeys)) :
    db' = db ∧ ∀ k, k ∈ clientKeys ↔ k ∈ db.clientKeys.keys.map boot.reading.read := by
  unfold loadClientKeys at h
  cases hquery : db.getClientKeys boot.reading boot.getClientKeys with
  | error e => simp [hquery] at h
  | ok rows =>
      have hperm := Db.getClientKeys_perm hquery
      simp only [hquery] at h
      split at h
      · rename_i hempty
        obtain rfl : rows = [] := by simpa using (Bool.and_eq_true_iff.mp hempty).1
        exact absurd (List.map_eq_nil_iff.mp (List.nil_perm.mp hperm)) hrows
      · cases h
        refine ⟨rfl, fun k => ?_⟩
        rw [mem_foldl_insert, (hperm.map ClientKeyModel.key).mem_iff, KeyedTable.keys,
          List.map_map, List.map_map]
        simp [Function.comp_def, ClientKeyModel.readBack]

/-- Every client key of `db'` was in `db`, or comes from the configuration and the
table of `db` was empty. -/
def ClientKeysFrom (config : Config) (db db' : Db) : Prop :=
  ∀ k ∈ db'.clientKeys.keys, k ∈ db.clientKeys.keys ∨
    db.clientKeys.rows = [] ∧ k ∈ config.clientKeys.map ClientKeyConfig.key

theorem loadClientKeys_from (boot : Boot) (config : Config) (db : Db) :
    ClientKeysFrom config db (leftDb Prod.fst (loadClientKeys boot config db)) := by
  unfold loadClientKeys
  cases hquery : db.getClientKeys boot.reading boot.getClientKeys with
  | error e => exact fun k hk => Or.inl hk
  | ok rows =>
      have hperm := Db.getClientKeys_perm hquery
      simp only
      split
      · rename_i hempty
        obtain rfl : rows = [] := by simpa using (Bool.and_eq_true_iff.mp hempty).1
        have hrows := List.map_eq_nil_iff.mp (List.nil_perm.mp hperm)
        refine seed_leftDb_invariant (P := ClientKeysFrom config db)
          (fun n db₁ ck hck hfrom => ?_) fun k hk => Or.inl hk
        rcases hreply : boot.addClientKey n with e | now
        · exact hfrom
        · intro k hk
          rcases KeyedTable.mem_keys_insertOrReplace.mp hk with rfl | hk
          · exact Or.inr ⟨hrows, List.mem_map_of_mem hck⟩
          · exact hfrom k hk
      · exact fun k hk => Or.inl hk

/-- Loading the downstream keys leaves the client keys alone. -/
theorem loadDownstreamKeys_clientKeys (boot : Boot) (config : Config) (db : Db) :
    (leftDb Prod.fst (loadDownstreamKeys boot config db)).clientKeys = db.clientKeys := by
  unfold loadDownstreamKeys
  cases db.getDownstreamKeys boot.reading boot.getDownstreamKeys with
  | error e => rfl
  | ok rows =>
      simp only
      split
      · refine seed_leftDb_invariant (P := fun db₁ => db₁.clientKeys = db.clientKeys)
          (fun n db₁ dk _ hsame => ?_) rfl
        rcases hreply : boot.addDownstreamKey n with e | now <;>
          simpa [Db.addDownstreamKey, Db.execute, hreply] using hsame
      · rfl

end Load

/-! ## What a start leaves -/

section New

variable {boot : Boot} {config : Config} {db : Db}

/-- A start that succeeds went through both loads. -/
theorem new_eq_ok_iff {s : AppState} : new boot config db = .ok s ↔
    boot.opened = .ok () ∧ ∃ loaded, loadClientKeys boot config db = .ok loaded ∧
      ∃ loaded', loadDownstreamKeys boot config loaded.1 = .ok loaded' ∧
        { config
          keyPool := KeyPool.new loaded'.2
          rateLimiter := RateLimiter.new config.rateLimit.requestsPerMinute
            config.rateLimit.burstSize
          db := loaded'.1
          clientKeys := loaded.2 } = s := by
  simp only [new, Fallible.bind_eq_ok_iff, Fallible.mapError_eq_ok_iff, pure, Except.pure,
    Except.ok.injEq]
  constructor
  · rintro ⟨_, hopened, rest⟩
    exact ⟨hopened, rest⟩
  · rintro ⟨hopened, rest⟩
    exact ⟨(), hopened, rest⟩

theorem new_eq_ok {s : AppState} (h : new boot config db = .ok s) :
    ∃ db₁ downstreamKeys,
      loadClientKeys boot config db = .ok (db₁, s.clientKeys) ∧
      loadDownstreamKeys boot config db₁ = .ok (s.db, downstreamKeys) ∧
      s.keyPool = KeyPool.new downstreamKeys := by
  obtain ⟨-, loaded, hclient, loaded', hdownstream, rfl⟩ := new_eq_ok_iff.mp h
  exact ⟨loaded.1, loaded'.2, hclient, hdownstream, rfl⟩

/-- A start makes a new limiter with the configured rate. -/
theorem rateLimiter_of_new {s : AppState} (h : new boot config db = .ok s) :
    s.rateLimiter = RateLimiter.new config.rateLimit.requestsPerMinute
      config.rateLimit.burstSize := by
  obtain ⟨-, loaded, -, loaded', -, rfl⟩ := new_eq_ok_iff.mp h
  rfl

/-- Right after a start from an empty table, the cache is the table. -/
theorem new_seeded {s : AppState} (h : new boot config db = .ok s)
    (hempty : db.clientKeys.rows = []) (k : String) :
    (k ∈ s.clientKeys ↔ k ∈ s.db.clientKeys.keys) ∧
      (k ∈ s.clientKeys ↔ k ∈ config.clientKeys.map ClientKeyConfig.key) := by
  obtain ⟨db₁, downstreamKeys, hclient, hdownstream, -⟩ := new_eq_ok h
  have hsame := loadDownstreamKeys_clientKeys boot config db₁
  rw [hdownstream] at hsame
  have hkeys : s.db.clientKeys = db₁.clientKeys := hsame
  rw [hkeys]
  exact loadClientKeys_seeded hempty hclient k

/-- Right after a start that loads the table, the cache is what is read of it. -/
theorem new_loaded {s : AppState} (h : new boot config db = .ok s)
    (hrows : db.clientKeys.rows ≠ []) :
    s.db.clientKeys = db.clientKeys ∧
      ∀ k, k ∈ s.clientKeys ↔ k ∈ db.clientKeys.keys.map boot.reading.read := by
  obtain ⟨db₁, downstreamKeys, hclient, hdownstream, -⟩ := new_eq_ok h
  have hsame := loadDownstreamKeys_clientKeys boot config db₁
  rw [hdownstream] at hsame
  obtain ⟨rfl, hcache⟩ := loadClientKeys_loaded hrows hclient
  exact ⟨hsame, hcache⟩

/-- **Right after a start, the cache is the table**, if no key of a table that is loaded
has a NUL in it. -/
theorem new_coherent {s : AppState} (h : new boot config db = .ok s)
    (hkeys : ∀ k ∈ db.clientKeys.keys, NoNul k) (k : String) :
    k ∈ s.clientKeys ↔ k ∈ s.db.clientKeys.keys := by
  by_cases hrows : db.clientKeys.rows = []
  · exact (new_seeded h hrows k).1
  · obtain ⟨hsame, hcache⟩ := new_loaded h hrows
    rw [hcache k, hsame, boot.reading.map_of_noNul hkeys]

/-- What a start leaves behind, load by load. -/
theorem leftDb_new (boot : Boot) (config : Config) (db : Db) :
    leftDb AppState.db (new boot config db) =
      match boot.opened with
      | .error _ => db
      | .ok () =>
          match loadClientKeys boot config db with
          | .error (left, _) => left
          | .ok (db₁, _) => leftDb Prod.fst (loadDownstreamKeys boot config db₁) := by
  simp only [new, bind, Except.bind]
  rcases boot.opened with e | ⟨⟩
  · rfl
  · simp only [Except.mapError]
    rcases loadClientKeys boot config db with ⟨left, e⟩ | ⟨db₁, clientKeys⟩
    · rfl
    · simp only
      rcases loadDownstreamKeys boot config db₁ with ⟨left, e⟩ | ⟨db₂, downstreamKeys⟩ <;> rfl

/-- A start, successful or not, adds client keys of the configuration only, and only
to an empty table. -/
theorem new_from (boot : Boot) (config : Config) (db : Db) :
    ClientKeysFrom config db (leftDb AppState.db (new boot config db)) := by
  have hfrom := loadClientKeys_from boot config db
  rw [leftDb_new]
  rcases boot.opened with e | ⟨⟩
  · exact fun k hk => Or.inl hk
  · rcases hload : loadClientKeys boot config db with ⟨left, e⟩ | ⟨db₁, clientKeys⟩ <;>
      rw [hload] at hfrom
    · exact hfrom
    · -- the second load leaves the client keys as the first one left them
      intro k hk
      rw [loadDownstreamKeys_clientKeys] at hk
      exact hfrom k hk

end New

end AppState

end XiaomiProxy
