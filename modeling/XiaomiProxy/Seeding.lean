import XiaomiProxy.Lib.Runs
import XiaomiProxy.Middleware.Auth
import XiaomiProxy.Proxy.PoolRuns
import XiaomiProxy.State

/-!
# Interrupted seeding

A start seeds a table that it finds empty with one statement per configured key, and
leaves at the first that fails.  What it added stays: `clientSeed` and `downstreamSeed`
say which keys these are, from the replies alone (`mem_clientKeys_new`,
`mem_downstreamKeys_new`).

The next start looks only at whether the table is empty.  So a start that added some of
the configured keys and not all of them leaves a table that is never completed, and the
start that succeeds in the end has all configured keys exactly if no failed start did
this, and it reads the keys that were added back as they were (`recovers_iff`).
-/

namespace XiaomiProxy

namespace AppState

/-! ## What a seeding loop adds -/

/-- The keys a seeding loop adds: those before its first failing statement. -/
def seededKeys (replies : ℕ → Db.Reply) : ℕ → List String → List String
  | _, [] => []
  | n, k :: keys =>
      if (replies n).isOk then k :: seededKeys replies (n + 1) keys else []

/-- The statement of `add` adds the key of an entry to one of the tables, unless its
reply is an error. -/
structure AddsKeys {α : Type} (add : ℕ → Db → α → Db × Except String Unit)
    (replies : ℕ → Db.Reply) (key : α → String) (keysOf : Db → List String) : Prop where
  fails : ∀ n db a e, replies n = .error e → add n db a = (db, .error e)
  adds : ∀ n db a now, replies n = .ok now → (add n db a).2 = .ok () ∧
    ∀ k, k ∈ keysOf (add n db a).1 ↔ k = key a ∨ k ∈ keysOf db

section Seed

variable {α β : Type} {add : ℕ → Db → α → Db × Except String Unit} {keep : β → α → β}
  {replies : ℕ → Db.Reply} {key : α → String} {keysOf : Db → List String}

theorem seededKeys_subset (replies : ℕ → Db.Reply) (n : ℕ) (keys : List String) :
    seededKeys replies n keys ⊆ keys := by
  induction keys generalizing n with
  | nil => exact List.Subset.refl _
  | cons k keys ih =>
      rw [seededKeys]
      split
      · exact List.cons_subset_cons k (ih (n + 1))
      · exact List.nil_subset _

/-- Wherever a seeding loop stops, the keys it added are there. -/
theorem AddsKeys.mem_leftDb (h : AddsKeys add replies key keysOf) (n : ℕ) (as : List α)
    (db : Db) (kept : β) (k : String) :
    k ∈ keysOf (leftDb Prod.fst (seed add keep n as db kept)) ↔
      k ∈ seededKeys replies n (as.map key) ∨ k ∈ keysOf db := by
  induction as generalizing n db kept with
  | nil => simp [seed, leftDb, seededKeys]
  | cons a as ih =>
      rw [seed, List.map_cons, seededKeys]
      cases hreply : replies n with
      | error e =>
          rw [h.fails n db a e hreply]
          simp [leftDb, Except.isOk, Except.toBool]
      | ok now =>
          obtain ⟨hok, hadds⟩ := h.adds n db a now hreply
          rcases hadd : add n db a with ⟨db', result⟩
          rw [hadd] at hok hadds
          obtain rfl : result = .ok () := hok
          simp only [Except.isOk, Except.toBool, if_true, List.mem_cons, ih, hadds]
          tauto

/-- A seeding loop gets to its end exactly if it adds all its keys. -/
theorem AddsKeys.isOk_iff (h : AddsKeys add replies key keysOf) (n : ℕ) (as : List α)
    (db : Db) (kept : β) :
    (seed add keep n as db kept).isOk = true ↔
      seededKeys replies n (as.map key) = as.map key := by
  induction as generalizing n db kept with
  | nil => simp [seed, seededKeys, Except.isOk, Except.toBool]
  | cons a as ih =>
      rw [seed, List.map_cons, seededKeys]
      cases hreply : replies n with
      | error e =>
          rw [h.fails n db a e hreply]
          simp [Except.isOk, Except.toBool]
      | ok now =>
          obtain ⟨hok, -⟩ := h.adds n db a now hreply
          rcases hadd : add n db a with ⟨db', result⟩
          rw [hadd] at hok
          obtain rfl : result = .ok () := hok
          simpa [Except.isOk, Except.toBool] using ih (n + 1) db' (keep kept a)

end Seed

/-- The statements that seed the client keys. -/
theorem addsKeys_clientKeys (replies : ℕ → Db.Reply) :
    AddsKeys (fun n db (ck : ClientKeyConfig) =>
        db.addClientKey (replies n) ck.key (some "Imported from config") none)
      replies ClientKeyConfig.key (fun db => db.clientKeys.keys) := by
  constructor
  · intro n db ck e hreply
    rw [Db.addClientKey, hreply]
    rfl
  · intro n db ck now hreply
    rw [Db.addClientKey, hreply]
    exact ⟨rfl, fun k => KeyedTable.mem_keys_insertOrReplace⟩

/-- The statements that seed the downstream keys. -/
theorem addsKeys_downstreamKeys (replies : ℕ → Db.Reply) :
    AddsKeys (fun n db (dk : DownstreamKeyConfig) =>
        db.addDownstreamKey (replies n) dk.key (asI64 dk.weight))
      replies DownstreamKeyConfig.key (fun db => db.downstreamKeys.keys) := by
  constructor
  · intro n db dk e hreply
    rw [Db.addDownstreamKey, hreply]
    rfl
  · intro n db dk now hreply
    rw [Db.addDownstreamKey, hreply]
    exact ⟨rfl, fun k => KeyedTable.mem_keys_insertOrReplace⟩

/-! ## What a start adds -/

/-- The client keys of a configuration. -/
def configuredClients (config : Config) : List String :=
  config.clientKeys.map ClientKeyConfig.key

/-- The downstream keys of a configuration. -/
def configuredDownstreams (config : Config) : List String :=
  config.downstreamKeys.map DownstreamKeyConfig.key

/-- The client keys a start adds to the table: none, unless it gets to its query and
finds the table empty. -/
def clientSeed (boot : Boot) (config : Config) (db : Db) : List String :=
  if boot.opened.isOk ∧ boot.getClientKeys.isOk ∧ db.clientKeys.keys = [] then
    seededKeys boot.addClientKey 0 (configuredClients config)
  else []

theorem clientSeed_subset (boot : Boot) (config : Config) (db : Db) :
    clientSeed boot config db ⊆ configuredClients config := by
  unfold clientSeed
  split
  · exact seededKeys_subset _ _ _
  · exact List.nil_subset _

/-- The downstream keys a start adds to the table.  It gets to the second query only if
it did not leave while seeding the client keys. -/
def downstreamSeed (boot : Boot) (config : Config) (db : Db) : List String :=
  if boot.opened.isOk ∧ boot.getClientKeys.isOk ∧
      (db.clientKeys.keys = [] → clientSeed boot config db = configuredClients config) ∧
      boot.getDownstreamKeys.isOk ∧ db.downstreamKeys.keys = [] then
    seededKeys boot.addDownstreamKey 0 (configuredDownstreams config)
  else []

theorem downstreamSeed_subset (boot : Boot) (config : Config) (db : Db) :
    downstreamSeed boot config db ⊆ configuredDownstreams config := by
  unfold downstreamSeed
  split
  · exact seededKeys_subset _ _ _
  · exact List.nil_subset _

section Load

variable {boot : Boot} {config : Config} {db : Db}

theorem loadClientKeys_of_error {e : String} (h : boot.getClientKeys = .error e) :
    loadClientKeys boot config db = .error (db, e) := by
  rw [loadClientKeys, h]
  rfl

/-- An empty table is seeded, possibly with nothing. -/
theorem loadClientKeys_of_nil {order : Db.NewestFirst ClientKeyModel.createdAt}
    (h : boot.getClientKeys = .ok order) (hnil : db.clientKeys.keys = []) :
    loadClientKeys boot config db = seed (fun n db ck =>
        db.addClientKey (boot.addClientKey n) ck.key (some "Imported from config") none)
      (fun clientKeysSet ck => insert ck.key clientKeysSet)
      0 config.clientKeys db ∅ := by
  have hrows := order.arrange_eq_nil.mpr (List.map_eq_nil_iff.mp hnil)
  rw [loadClientKeys, h, Db.getClientKeys, Except.map, hrows, List.map_nil]
  cases hconfig : config.clientKeys with
  | nil => rfl
  | cons ck rest => rfl

/-- A table that is not empty is loaded. -/
theorem loadClientKeys_of_ne_nil {order : Db.NewestFirst ClientKeyModel.createdAt}
    (h : boot.getClientKeys = .ok order) (hne : db.clientKeys.keys ≠ []) :
    ∃ clientKeys, loadClientKeys boot config db = .ok (db, clientKeys) := by
  have hrows := order.isEmpty_arrange hne
  rw [loadClientKeys, h, Db.getClientKeys, Except.map]
  simp only [List.isEmpty_map, hrows, Bool.false_and, Bool.false_eq_true, if_false]
  exact ⟨_, rfl⟩

theorem loadDownstreamKeys_of_error {e : String} (h : boot.getDownstreamKeys = .error e) :
    loadDownstreamKeys boot config db = .error (db, e) := by
  rw [loadDownstreamKeys, h]
  rfl

theorem loadDownstreamKeys_of_nil {order : Db.NewestFirst DownstreamKeyModel.createdAt}
    (h : boot.getDownstreamKeys = .ok order) (hnil : db.downstreamKeys.keys = []) :
    loadDownstreamKeys boot config db = seed (fun n db dk =>
        db.addDownstreamKey (boot.addDownstreamKey n) dk.key (asI64 dk.weight))
      (fun downstreamKeysList dk => downstreamKeysList ++ [dk])
      0 config.downstreamKeys db [] := by
  have hrows := order.arrange_eq_nil.mpr (List.map_eq_nil_iff.mp hnil)
  rw [loadDownstreamKeys, h, Db.getDownstreamKeys, Except.map, hrows, List.map_nil]
  cases hconfig : config.downstreamKeys with
  | nil => rfl
  | cons dk rest => rfl

theorem loadDownstreamKeys_of_ne_nil
    {order : Db.NewestFirst DownstreamKeyModel.createdAt}
    (h : boot.getDownstreamKeys = .ok order) (hne : db.downstreamKeys.keys ≠ []) :
    loadDownstreamKeys boot config db = .ok (db, (order.arrange db.downstreamKeys.rows).map
      fun dk => { key := boot.reading.read dk.key, weight := asU32 dk.weight }) := by
  have hrows := order.isEmpty_arrange hne
  rw [loadDownstreamKeys, h, Db.getDownstreamKeys, Except.map]
  simp only [List.isEmpty_map, hrows, Bool.false_and, Bool.false_eq_true, if_false,
    List.map_map]
  rfl

/-- Loading the client keys leaves the downstream keys alone, wherever it stops. -/
theorem loadClientKeys_downstreamKeys (boot : Boot) (config : Config) (db : Db) :
    (leftDb Prod.fst (loadClientKeys boot config db)).downstreamKeys = db.downstreamKeys := by
  cases hquery : boot.getClientKeys with
  | error e =>
      rw [loadClientKeys_of_error hquery]
      rfl
  | ok order =>
      by_cases hkeys : db.clientKeys.keys = []
      · rw [loadClientKeys_of_nil hquery hkeys]
        refine seed_leftDb_invariant
          (P := fun db₁ => db₁.downstreamKeys = db.downstreamKeys)
          (fun n db₁ ck _ hsame => ?_) rfl
        rcases hreply : boot.addClientKey n with e | now <;> exact hsame
      · obtain ⟨clientKeys, hload⟩ := loadClientKeys_of_ne_nil hquery hkeys
        rw [hload]
        rfl

theorem downstreamKeys_of_loadClientKeys {db' : Db} {clientKeys : Finset String}
    (h : loadClientKeys boot config db = .ok (db', clientKeys)) :
    db'.downstreamKeys = db.downstreamKeys := by
  have hsame := loadClientKeys_downstreamKeys boot config db
  rwa [h] at hsame

/-- The first load gets to its end if it finds keys, or seeds all that are
configured. -/
theorem loadClientKeys_isOk_iff (hopened : boot.opened = .ok ()) :
    (loadClientKeys boot config db).isOk = true ↔ boot.getClientKeys.isOk = true ∧
      (db.clientKeys.keys = [] → clientSeed boot config db = configuredClients config) := by
  cases hquery : boot.getClientKeys with
  | error e =>
      rw [loadClientKeys_of_error hquery]
      simp [Except.isOk, Except.toBool]
  | ok order =>
      by_cases hkeys : db.clientKeys.keys = []
      · rw [loadClientKeys_of_nil hquery hkeys,
          (addsKeys_clientKeys boot.addClientKey).isOk_iff, clientSeed, hopened, hquery,
          if_pos ⟨rfl, rfl, hkeys⟩]
        exact ⟨fun hall => ⟨rfl, fun _ => hall⟩, fun h => h.2 hkeys⟩
      · obtain ⟨clientKeys, hload⟩ := loadClientKeys_of_ne_nil hquery hkeys
        rw [hload]
        exact ⟨fun _ => ⟨rfl, fun hnil => absurd hnil hkeys⟩, fun _ => rfl⟩

/-- **The client keys a start leaves**: those it found and those it seeds. -/
theorem mem_clientKeys_new (boot : Boot) (config : Config) (db : Db) (k : String) :
    k ∈ (leftDb AppState.db (new boot config db)).clientKeys.keys ↔
      k ∈ clientSeed boot config db ∨ k ∈ db.clientKeys.keys := by
  rw [leftDb_new]
  rcases hopened : boot.opened with e | ⟨⟩
  · simp [clientSeed, hopened, Except.isOk, Except.toBool]
  · have hleft : k ∈ (leftDb Prod.fst (loadClientKeys boot config db)).clientKeys.keys ↔
        k ∈ clientSeed boot config db ∨ k ∈ db.clientKeys.keys := by
      cases hquery : boot.getClientKeys with
      | error e =>
          rw [loadClientKeys_of_error hquery]
          simp [clientSeed, hquery, leftDb, Except.isOk, Except.toBool]
      | ok order =>
          by_cases hkeys : db.clientKeys.keys = []
          · rw [loadClientKeys_of_nil hquery hkeys,
              (addsKeys_clientKeys boot.addClientKey).mem_leftDb, clientSeed, hopened,
              hquery, if_pos ⟨rfl, rfl, hkeys⟩]
            rfl
          · obtain ⟨clientKeys, hload⟩ := loadClientKeys_of_ne_nil hquery hkeys
            rw [hload]
            simp [clientSeed, hkeys, leftDb]
    rcases hload : loadClientKeys boot config db with ⟨left, e⟩ | ⟨db₁, clientKeys⟩ <;>
      rw [hload] at hleft
    · exact hleft
    · simp only [loadDownstreamKeys_clientKeys]
      exact hleft

/-- **The downstream keys a start leaves**: those it found and those it seeds. -/
theorem mem_downstreamKeys_new (boot : Boot) (config : Config) (db : Db) (k : String) :
    k ∈ (leftDb AppState.db (new boot config db)).downstreamKeys.keys ↔
      k ∈ downstreamSeed boot config db ∨ k ∈ db.downstreamKeys.keys := by
  rcases hopened : boot.opened with e | ⟨⟩
  · rw [leftDb_new]
    simp [downstreamSeed, hopened, Except.isOk, Except.toBool]
  · have hsame := loadClientKeys_downstreamKeys boot config db
    have hisOk : (loadClientKeys boot config db).isOk = true ↔ _ :=
      loadClientKeys_isOk_iff hopened
    rcases hload : loadClientKeys boot config db with ⟨left, e⟩ | ⟨db₁, clientKeys⟩ <;>
      rw [hload] at hsame hisOk
    · -- the start left before its second query
      have hleft : leftDb AppState.db (new boot config db) = left := by
        rw [leftDb_new, hopened, hload]
      have hseed : downstreamSeed boot config db = [] := by
        refine if_neg ?_
        rintro ⟨-, hquery, hall, -⟩
        cases hisOk.mpr ⟨hquery, hall⟩
      have hkept : left.downstreamKeys = db.downstreamKeys := hsame
      simp [hleft, hseed, hkept]
    · have hleft : leftDb AppState.db (new boot config db)
          = leftDb Prod.fst (loadDownstreamKeys boot config db₁) := by
        rw [leftDb_new, hopened, hload]
      have hkept : db₁.downstreamKeys = db.downstreamKeys := hsame
      obtain ⟨hquery, hall⟩ := hisOk.mp rfl
      rw [hleft, downstreamSeed, hopened, hquery]
      cases hquery' : boot.getDownstreamKeys with
      | error e =>
          rw [loadDownstreamKeys_of_error hquery']
          simp [leftDb, hkept, Except.isOk, Except.toBool]
      | ok order =>
          by_cases hkeys : db.downstreamKeys.keys = []
          · rw [loadDownstreamKeys_of_nil hquery' (by rw [hkept, hkeys]),
              (addsKeys_downstreamKeys boot.addDownstreamKey).mem_leftDb, hkept,
              if_pos ⟨rfl, rfl, hall, rfl, hkeys⟩]
            rfl
          · rw [loadDownstreamKeys_of_ne_nil hquery' (by rwa [hkept])]
            simp [leftDb, hkept, hkeys]

end Load

section New

variable {boot : Boot} {config : Config} {db : Db} {s : AppState}

theorem opened_of_new (h : new boot config db = .ok s) : boot.opened = .ok () :=
  (new_eq_ok_iff.mp h).1

/-- A start that succeeds and finds no client keys seeds all that are configured. -/
theorem clientSeed_of_new (h : new boot config db = .ok s)
    (hkeys : db.clientKeys.keys = []) :
    clientSeed boot config db = configuredClients config := by
  obtain ⟨db₁, downstreamKeys, hclient, -, -⟩ := new_eq_ok h
  refine ((loadClientKeys_isOk_iff (opened_of_new h)).mp ?_).2 hkeys
  rw [hclient]
  rfl

/-- A start that succeeds and finds no downstream keys seeds all that are
configured. -/
theorem downstreamSeed_of_new (h : new boot config db = .ok s)
    (hkeys : db.downstreamKeys.keys = []) :
    downstreamSeed boot config db = configuredDownstreams config := by
  obtain ⟨db₁, downstreamKeys, hclient, hdownstream, -⟩ := new_eq_ok h
  have hopened := opened_of_new h
  have hkept := downstreamKeys_of_loadClientKeys hclient
  obtain ⟨hquery, hall⟩ := (loadClientKeys_isOk_iff hopened).mp (by rw [hclient]; rfl)
  cases hquery' : boot.getDownstreamKeys with
  | error e =>
      rw [loadDownstreamKeys_of_error hquery'] at hdownstream
      cases hdownstream
  | ok order =>
      rw [loadDownstreamKeys_of_nil hquery' (by rw [hkept, hkeys])] at hdownstream
      rw [downstreamSeed, hopened, hquery, hquery', if_pos ⟨rfl, rfl, hall, rfl, hkeys⟩]
      exact ((addsKeys_downstreamKeys boot.addDownstreamKey).isOk_iff 0
        config.downstreamKeys db₁ _).mp (by rw [hdownstream]; rfl)

/-- What a start that succeeds builds its pool from: the configured keys if it finds
the table empty, and otherwise what it reads of the rows of the table. -/
theorem keyPool_of_new (h : new boot config db = .ok s) :
    (db.downstreamKeys.keys = [] ∧ s.keyPool = KeyPool.new config.downstreamKeys) ∨
      ∃ rows : List DownstreamKeyModel, db.downstreamKeys.keys ≠ [] ∧
        rows.Perm db.downstreamKeys.rows ∧ s.db.downstreamKeys = db.downstreamKeys ∧
        s.keyPool = KeyPool.new (rows.map fun dk =>
          { key := boot.reading.read dk.key, weight := asU32 dk.weight }) := by
  obtain ⟨db₁, downstreamKeys, hclient, hdownstream, hpool⟩ := new_eq_ok h
  have hkept := downstreamKeys_of_loadClientKeys hclient
  cases hquery : boot.getDownstreamKeys with
  | error e =>
      rw [loadDownstreamKeys_of_error hquery] at hdownstream
      cases hdownstream
  | ok order =>
      by_cases hkeys : db.downstreamKeys.keys = []
      · rw [loadDownstreamKeys_of_nil hquery (by rw [hkept, hkeys])] at hdownstream
        have hall := seed_ok_kept hdownstream
        rw [List.foldl_append_eq_append, ← List.flatMap_def, List.nil_append,
          List.flatMap_singleton'] at hall
        exact Or.inl ⟨hkeys, by rw [hpool, hall]⟩
      · rw [loadDownstreamKeys_of_ne_nil hquery (by rwa [hkept])] at hdownstream
        obtain ⟨hdb, hlist⟩ := Prod.mk.inj (Except.ok.inj hdownstream)
        refine Or.inr ⟨_, hkeys, order.perm _, ?_, ?_⟩
        · rw [← hdb, hkept]
        · rw [hpool, ← hlist, hkept]

/-- The client keys a start that succeeds accepts: the configured ones if it finds the
table empty, and otherwise what it reads of the table. -/
def loadedClients (reading : TextReading) (config : Config) (db : Db) : List String :=
  if db.clientKeys.keys = [] then configuredClients config
  else db.clientKeys.keys.map reading.read

/-- The downstream keys a start that succeeds has in its pool. -/
def loadedDownstreams (reading : TextReading) (config : Config) (db : Db) : List String :=
  if db.downstreamKeys.keys = [] then configuredDownstreams config
  else db.downstreamKeys.keys.map reading.read

theorem mem_clientKeys_of_new (h : new boot config db = .ok s) (k : String) :
    k ∈ s.clientKeys ↔ k ∈ loadedClients boot.reading config db := by
  rw [loadedClients]
  by_cases hkeys : db.clientKeys.keys = []
  · rw [if_pos hkeys]
    exact (new_seeded h (List.map_eq_nil_iff.mp hkeys) k).2
  · rw [if_neg hkeys]
    exact (new_loaded h (mt List.map_eq_nil_iff.mpr hkeys)).2 k

theorem perm_keyNames_of_new (h : new boot config db = .ok s) :
    s.keyPool.keyNames.Perm (loadedDownstreams boot.reading config db) := by
  rcases keyPool_of_new h with ⟨hkeys, hpool⟩ | ⟨rows, hkeys, hperm, -, hpool⟩ <;>
    rw [hpool, KeyPool.keyNames_new, loadedDownstreams]
  · rw [if_pos hkeys]
    exact List.Perm.refl _
  · rw [if_neg hkeys, KeyedTable.keys, List.map_map, List.map_map]
    exact hperm.map _

/-- The replies that let a start succeed: those to the steps before the first query and
to the two queries, and, of a table that is found empty, those to all its statements. -/
def Completes (boot : Boot) (config : Config) (db : Db) : Prop :=
  boot.opened.isOk ∧ boot.getClientKeys.isOk ∧
    (db.clientKeys.keys = [] → clientSeed boot config db = configuredClients config) ∧
    boot.getDownstreamKeys.isOk ∧
    (db.downstreamKeys.keys = [] →
      downstreamSeed boot config db = configuredDownstreams config)

instance (boot : Boot) (config : Config) (db : Db) : Decidable (Completes boot config db) :=
  inferInstanceAs (Decidable (_ ∧ _ ∧ _ ∧ _ ∧ _))

/-- **When a start succeeds.** -/
theorem exists_new_iff : (∃ s, new boot config db = .ok s) ↔ Completes boot config db := by
  constructor
  · rintro ⟨s, h⟩
    obtain ⟨db₁, downstreamKeys, hclient, hdownstream, -⟩ := new_eq_ok h
    have hopened := opened_of_new h
    have hquery := ((loadClientKeys_isOk_iff hopened).mp (by rw [hclient]; rfl)).1
    refine ⟨by rw [hopened]; rfl, hquery, clientSeed_of_new h, ?_,
      downstreamSeed_of_new h⟩
    cases hquery' : boot.getDownstreamKeys with
    | error e =>
        rw [loadDownstreamKeys_of_error hquery'] at hdownstream
        cases hdownstream
    | ok order => rfl
  · rintro ⟨hopened, hquery, hclient, hquery', hdownstream⟩
    obtain ⟨⟨⟩, hopened⟩ := Fallible.isOk_iff.mp hopened
    obtain ⟨⟨db₁, clientKeys⟩, hload⟩ := Fallible.isOk_iff.mp
      ((loadClientKeys_isOk_iff hopened).mpr ⟨hquery, hclient⟩)
    have hkept := downstreamKeys_of_loadClientKeys hload
    obtain ⟨order, hquery'⟩ := Fallible.isOk_iff.mp hquery'
    have hsecond : (loadDownstreamKeys boot config db₁).isOk = true := by
      by_cases hkeys : db.downstreamKeys.keys = []
      · have hall := hdownstream hkeys
        rw [downstreamSeed, hopened, hquery', if_pos ⟨rfl, hquery, hclient, rfl, hkeys⟩]
          at hall
        rw [loadDownstreamKeys_of_nil hquery' (by rw [hkept, hkeys])]
        exact (addsKeys_downstreamKeys boot.addDownstreamKey).isOk_iff 0
          config.downstreamKeys db₁ _ |>.mpr hall
      · rw [loadDownstreamKeys_of_ne_nil hquery' (by rwa [hkept])]
        rfl
    obtain ⟨loaded', hload'⟩ := Fallible.isOk_iff.mp hsecond
    exact ⟨_, new_eq_ok_iff.mpr ⟨hopened, _, hload, _, hload', rfl⟩⟩

theorem seededKeys_of_ok (now : String) (n : ℕ) (keys : List String) :
    seededKeys (fun _ => .ok now) n keys = keys := by
  induction keys generalizing n with
  | nil => rfl
  | cons k keys ih =>
      rw [seededKeys, ih]
      rfl

/-- A start in which everything succeeds succeeds. -/
theorem exists_new_succeeding (now : String) (config : Config) (db : Db) :
    ∃ s, new (.succeeding now) config db = .ok s := by
  have hclient : db.clientKeys.keys = [] →
      clientSeed (.succeeding now) config db = configuredClients config := by
    intro hkeys
    rw [clientSeed, if_pos ⟨rfl, rfl, hkeys⟩]
    exact seededKeys_of_ok now 0 _
  refine exists_new_iff.mpr ⟨rfl, rfl, hclient, rfl, fun hkeys => ?_⟩
  rw [downstreamSeed, if_pos ⟨rfl, rfl, hclient, rfl, hkeys⟩]
  exact seededKeys_of_ok now 0 _

end New

/-! ## Starts that fail, and the one that succeeds -/

/-- The database after a start that fails. -/
def failedStart (config : Config) (db : Db) (boot : Boot) : Option Db :=
  match new boot config db with
  | .error (left, _) => some left
  | .ok _ => none

/-- None or all of the configured keys. -/
def NoneOrAll (configured keys : List String) : Prop :=
  keys = [] ∨ ∀ k ∈ configured, k ∈ keys

instance (configured keys : List String) : Decidable (NoneOrAll configured keys) :=
  inferInstanceAs (Decidable (_ ∨ _))

/-- The start seeds none or all of the configured keys, in either table. -/
def SeedsNoneOrAll (config : Config) (db : Db) (boot : Boot) : Prop :=
  NoneOrAll (configuredClients config) (clientSeed boot config db) ∧
    NoneOrAll (configuredDownstreams config) (downstreamSeed boot config db)

instance (config : Config) (db : Db) (boot : Boot) :
    Decidable (SeedsNoneOrAll config db boot) :=
  inferInstanceAs (Decidable (_ ∧ _))

/-- A table that is not found empty gives the configured keys back as they are. -/
def ReadsConfigured (reading : TextReading) (config : Config) (db : Db) : Prop :=
  (db.clientKeys.keys ≠ [] → ∀ k ∈ configuredClients config, reading.read k = k) ∧
    (db.downstreamKeys.keys ≠ [] →
      ∀ k ∈ configuredDownstreams config, reading.read k = k)

instance (reading : TextReading) (config : Config) (db : Db) :
    Decidable (ReadsConfigured reading config db) :=
  inferInstanceAs (Decidable (_ ∧ _))

/-- The tables hold only configured keys. -/
def OnlyConfigured (config : Config) (db : Db) : Prop :=
  db.clientKeys.keys ⊆ configuredClients config ∧
    db.downstreamKeys.keys ⊆ configuredDownstreams config

/-- Each table holds none or all of the configured keys. -/
def HoldsNoneOrAll (config : Config) (db : Db) : Prop :=
  NoneOrAll (configuredClients config) db.clientKeys.keys ∧
    NoneOrAll (configuredDownstreams config) db.downstreamKeys.keys

section NoneOrAll

variable {configured keys seed keys' : List String}

/-- Seeding none or all is what keeps a table at none or all. -/
theorem NoneOrAll.seed_iff (h : NoneOrAll configured keys)
    (hkeys' : ∀ k, k ∈ keys' ↔ k ∈ seed ∨ k ∈ keys) (hseed : keys ≠ [] → seed = []) :
    NoneOrAll configured keys' ↔ NoneOrAll configured seed := by
  by_cases hkeys : keys = []
  · subst hkeys
    have hmem : ∀ k, k ∈ keys' ↔ k ∈ seed := by simpa using hkeys'
    simp only [NoneOrAll, List.eq_nil_iff_forall_not_mem, hmem]
  · -- a table with keys is not seeded, and holds all already
    have hmem : ∀ k, k ∈ keys' ↔ k ∈ keys := by simpa [hseed hkeys] using hkeys'
    refine iff_of_true (Or.inr fun k hk => ?_) (Or.inl (hseed hkeys))
    exact (hmem k).mpr (h.resolve_left hkeys k hk)

/-- A table that holds some of the configured keys and not all is never completed. -/
theorem NoneOrAll.of_seeded (h : NoneOrAll configured keys')
    (hkeys' : ∀ k, k ∈ keys' ↔ k ∈ seed ∨ k ∈ keys) (hseed : keys ≠ [] → seed = []) :
    NoneOrAll configured keys := by
  by_cases hkeys : keys = []
  · exact Or.inl hkeys
  · have hmem : ∀ k, k ∈ keys' ↔ k ∈ keys := by simpa [hseed hkeys] using hkeys'
    simpa only [NoneOrAll, List.eq_nil_iff_forall_not_mem, hmem] using h

/-- A table of configured keys gives all of them exactly if it holds none or all, and
gives what it holds back as it is. -/
theorem NoneOrAll.loaded_iff {reading : TextReading} (honly : keys ⊆ configured) :
    (∀ k ∈ configured, k ∈ if keys = [] then configured else keys.map reading.read) ↔
      NoneOrAll configured keys ∧
        (keys ≠ [] → ∀ k ∈ configured, reading.read k = k) := by
  by_cases hkeys : keys = []
  · rw [if_pos hkeys]
    exact iff_of_true (fun k hk => hk) ⟨Or.inl hkeys, fun hne => absurd hkeys hne⟩
  · rw [if_neg hkeys]
    constructor
    · intro hall
      have hread := reading.read_eq_of_subset fun k hk => hall k hk
      refine ⟨Or.inr fun k hk => ?_, fun _ => hread⟩
      obtain ⟨t, ht, rfl⟩ := List.mem_map.mp (hall k hk)
      rwa [hread t (honly ht)]
    · rintro ⟨hholds, hread⟩ k hk
      exact List.mem_map.mpr ⟨k, hholds.resolve_left hkeys k hk, hread hkeys k hk⟩

end NoneOrAll

section Recovery

variable {boot : Boot} {config : Config} {db left : Db} {s : AppState}

/-- Only an empty table is seeded. -/
theorem clientSeed_of_ne_nil (hkeys : db.clientKeys.keys ≠ []) :
    clientSeed boot config db = [] :=
  if_neg fun h => hkeys h.2.2

theorem downstreamSeed_of_ne_nil (hkeys : db.downstreamKeys.keys ≠ []) :
    downstreamSeed boot config db = [] :=
  if_neg fun h => hkeys h.2.2.2.2

theorem leftDb_of_failedStart (h : failedStart config db boot = some left) :
    leftDb AppState.db (new boot config db) = left := by
  unfold failedStart at h
  rcases hnew : new boot config db with ⟨db', e⟩ | s <;> rw [hnew] at h
  · exact Option.some.inj h
  · cases h

/-- **A failed start keeps both tables at none or all exactly if it seeds none or
all.** -/
theorem holdsNoneOrAll_failedStart_iff (hholds : HoldsNoneOrAll config db)
    (h : failedStart config db boot = some left) :
    HoldsNoneOrAll config left ↔ SeedsNoneOrAll config db boot := by
  have hclient := mem_clientKeys_new boot config db
  have hdownstream := mem_downstreamKeys_new boot config db
  rw [leftDb_of_failedStart h] at hclient hdownstream
  exact and_congr (hholds.1.seed_iff hclient clientSeed_of_ne_nil)
    (hholds.2.seed_iff hdownstream downstreamSeed_of_ne_nil)

/-- No failed start completes a table. -/
theorem HoldsNoneOrAll.of_failedStart (hholds : HoldsNoneOrAll config left)
    (h : failedStart config db boot = some left) : HoldsNoneOrAll config db := by
  have hclient := mem_clientKeys_new boot config db
  have hdownstream := mem_downstreamKeys_new boot config db
  rw [leftDb_of_failedStart h] at hclient hdownstream
  exact ⟨hholds.1.of_seeded hclient clientSeed_of_ne_nil,
    hholds.2.of_seeded hdownstream downstreamSeed_of_ne_nil⟩

/-- A failed start adds configured keys only. -/
theorem OnlyConfigured.failedStart (honly : OnlyConfigured config db)
    (h : failedStart config db boot = some left) : OnlyConfigured config left := by
  have hclient := mem_clientKeys_new boot config db
  have hdownstream := mem_downstreamKeys_new boot config db
  rw [leftDb_of_failedStart h] at hclient hdownstream
  constructor
  · intro k hk
    rcases (hclient k).mp hk with hseed | hold
    · exact clientSeed_subset boot config db hseed
    · exact honly.1 hold
  · intro k hk
    rcases (hdownstream k).mp hk with hseed | hold
    · exact downstreamSeed_subset boot config db hseed
    · exact honly.2 hold

/-- All configured client keys are accepted, and all configured downstream keys are in
the pool. -/
def HasConfigured (config : Config) (s : AppState) : Prop :=
  (∀ k ∈ configuredClients config, (Auth.authorize s.clientKeys (some k)).isOk = true) ∧
    ∀ k ∈ configuredDownstreams config, k ∈ s.keyPool.keyNames

instance (config : Config) (s : AppState) : Decidable (HasConfigured config s) :=
  inferInstanceAs (Decidable (_ ∧ _))

/-- A start that succeeds on tables of configured keys has all of them exactly if it found
none or all in each table, and reads those it found back as they are. -/
theorem hasConfigured_new_iff (honly : OnlyConfigured config db)
    (h : new boot config db = .ok s) :
    HasConfigured config s ↔
      HoldsNoneOrAll config db ∧ ReadsConfigured boot.reading config db := by
  simp only [HasConfigured, Auth.authorize_isOk_iff, mem_clientKeys_of_new h,
    (perm_keyNames_of_new h).mem_iff, loadedClients, loadedDownstreams]
  rw [NoneOrAll.loaded_iff honly.1, NoneOrAll.loaded_iff honly.2]
  exact and_and_and_comm

/-- **After any number of failed starts from an empty database, the start that succeeds
has all configured keys exactly if every failed one seeded none or all of them, and it
reads those that were seeded back as they are.** -/
theorem recovers_iff (config : Config) (boots : List Boot)
    (hfailed : Runs.run (failedStart config) .empty boots = some db) (boot : Boot)
    (h : new boot config db = .ok s) :
    HasConfigured config s ↔
      Runs.Along (failedStart config) (SeedsNoneOrAll config) .empty boots ∧
        ReadsConfigured boot.reading config db := by
  have hempty : HoldsNoneOrAll config .empty := ⟨Or.inl rfl, Or.inl rfl⟩
  have honly : OnlyConfigured config db := Runs.run_invariant (I := OnlyConfigured config)
    (fun _ _ _ honly hstart => honly.failedStart hstart)
    ⟨List.nil_subset _, List.nil_subset _⟩ hfailed
  rw [hasConfigured_new_iff honly h]
  refine and_congr_left fun _ => ?_
  exact Runs.run_iff_along (fun db boot _ left => holdsNoneOrAll_failedStart_iff)
    (fun db boot _ left hstart hholds => hholds.of_failedStart hstart) hempty hfailed

end Recovery

/-- Two client keys and two downstream keys. -/
def twoAndTwo : Config :=
  { Config.withoutFile with
    clientKeys := [⟨"sk-1"⟩, ⟨"sk-2"⟩]
    downstreamKeys := [⟨"tp-1", 1⟩, ⟨"tp-2", 1⟩] }

/-- A start whose seeding statement for a client key fails. -/
def failingAtClient (n : ℕ) : Boot :=
  { Boot.succeeding "now" with
    addClientKey := fun m => if m = n then .error "disk I/O error" else .ok "now" }

/-- A start whose seeding statement for a downstream key fails. -/
def failingAtDownstream (n : ℕ) : Boot :=
  { Boot.succeeding "now" with
    addDownstreamKey := fun m => if m = n then .error "disk I/O error" else .ok "now" }

/-- Starts that fail at the first statement of either loop are recovered from. -/
theorem recovers_two_starts :
    ∃ db s, Runs.run (failedStart twoAndTwo) .empty
        [failingAtClient 0, failingAtDownstream 0] = some db ∧
      new (.succeeding "now") twoAndTwo db = .ok s ∧ HasConfigured twoAndTwo s :=
  ⟨_, _, rfl, rfl, (recovers_iff twoAndTwo [failingAtClient 0, failingAtDownstream 0] rfl
    (.succeeding "now") rfl).mpr (by decide)⟩

/-- A start that fails at the second client key leaves a table with the first one; the
next start succeeds, and the second key is not accepted. -/
theorem not_recovers :
    ∃ db s, Runs.run (failedStart twoAndTwo) .empty [failingAtClient 1] = some db ∧
      new (.succeeding "now") twoAndTwo db = .ok s ∧
      (Auth.authorize s.clientKeys (some "sk-2")).isOk = false ∧
      ¬ HasConfigured twoAndTwo s :=
  ⟨_, _, rfl, rfl, by decide, by decide⟩

end AppState

end XiaomiProxy
