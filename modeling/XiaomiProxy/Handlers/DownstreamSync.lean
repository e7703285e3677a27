import XiaomiProxy.Handlers.Admin
import XiaomiProxy.Proxy.PoolRuns
import XiaomiProxy.Seeding

/-!
# The pool and the table of downstream keys

The `downstream_keys` table and the key pool each hold keys with weights; `InSync`
says that they hold the same.  Both are compared as books: a start loads one from the
other, and each admin operation puts or drops a key in both.

The two stores differ in what they make of four things, and these are exactly what
takes them apart (`Loads`, `Keeps`):

* a weight that is no `u32`, which the table keeps and the pool truncates;
* a key listed twice in the configuration, which the table holds once and the pool
  twice;
* an update of a key that is not there, which the table ignores and the pool adds;
* a key that a start reads otherwise than it is stored, because of a NUL in it.
-/

namespace XiaomiProxy

/-! ## The book of the pool -/

namespace KeyPool

/-- The keys of the pool and their weights, as integers. -/
def weights (p : KeyPool) : Book String ℤ :=
  (p.keys.cells.map fun k => (k.val.key, (k.val.weight.toNat : ℤ)) : List (String × ℤ))

theorem single_weights_iff (p : KeyPool) : p.weights.Single ↔ p.DistinctKeys := by
  rw [Book.Single, weights, Multiset.map_coe, List.map_map, Multiset.coe_nodup]
  rfl

theorem weights_new (configs : List DownstreamKeyConfig) :
    (KeyPool.new configs).weights
      = (configs.map fun c => (c.key, (c.weight.toNat : ℤ)) : List (String × ℤ)) :=
  congrArg _ (column_new (g := fun e => (e.key, (e.weight.toNat : ℤ))) configs)

theorem weights_removeKey (p : KeyPool) (key : String) :
    (p.removeKey key).weights = p.weights.drop key := by
  simp [weights, removeKey, Book.drop, Multiset.filter_coe, List.filter_map,
    Function.comp_def]

/-- With distinct keys, adding a key puts its weight, whether it was there or not. -/
theorem weights_addKey {p : KeyPool} (h : p.DistinctKeys) (key : String)
    (weight : UInt32) :
    (p.addKey key weight).weights = p.weights.put key (weight.toNat : ℤ) := by
  cases hentry : p.entryOf? key with
  | none =>
      have habsent : key ∉ p.weights.map Prod.fst := by
        simpa [weights, List.map_map] using fun k hk => entryOf?_eq_none.mp hentry k hk
      rw [addKey_of_none hentry, Book.put, Book.drop_eq_self habsent, weights, weights,
        SharedVec.push_cells, List.map_append, ← Multiset.coe_add, add_comm]
      rfl
  | some k =>
      have hmem := entryOf?_mem hentry
      rw [addKey_of_some hentry, ← entryOf?_key hentry, weights, SharedVec.modify_cells,
        List.map_map]
      refine Book.coe_map_eq_put (c := k) (l := p.keys.cells)
        (g := fun k => (k.val.key, (k.val.weight.toNat : ℤ))) h hmem ?_ ?_
      · simp [Cell.update_self, PooledKey.reweigh]
      · intro l hl hne
        have hptr : l.ptr ≠ k.ptr := by
          intro heq
          exact hne (by rw [p.keys.eq_of_ptr_eq hl hmem heq])
        simp [Cell.update_of_ne _ hptr]

end KeyPool

/-! ## One operation -/

/-- A downstream-key operation of the admin, and the reply to its statement. -/
inductive DownstreamOp where
  | add (reply : Db.Reply) (payload : AddDownstreamKeyPayload)
  | update (reply : Db.Reply) (key : String) (weight : Int64)
  | delete (reply : Db.Reply) (key : String)

namespace AppState

/-- The state after an operation. -/
def downstreamStep (s : AppState) : DownstreamOp → Option AppState
  | .add reply payload => some (Admin.addDownstreamKey reply payload s).1
  | .update reply key weight => some (Admin.updateDownstreamKey reply key weight s).1
  | .delete reply key => some (Admin.deleteDownstreamKey reply key s).1

/-- The pool and the table hold the same keys with the same weights. -/
def InSync (s : AppState) : Prop := s.keyPool.weights = s.db.weights

/-- The operation fails in its statement, or the pool can follow the table: what is
added fits in a `u32`, and what is updated is there and fits. -/
def Keeps (s : AppState) : DownstreamOp → Prop
  | .add reply payload =>
      reply.isOk = true → 0 ≤ payload.weight.toInt ∧ payload.weight.toInt < 2 ^ 32
  | .update reply key weight =>
      reply.isOk = true → key ∈ s.db.downstreamKeys.keys ∧ weight.toInt < 2 ^ 32
  | .delete _ _ => True

instance (s : AppState) : DecidablePred s.Keeps
  | .add _ _ => inferInstanceAs (Decidable (_ → _))
  | .update _ _ _ => inferInstanceAs (Decidable (_ → _))
  | .delete _ _ => isTrue trivial

theorem InSync.distinctKeys {s : AppState} (h : s.InSync) : s.keyPool.DistinctKeys := by
  rw [← KeyPool.single_weights_iff, h]
  exact s.db.downstreamKeys.book_single _

theorem max_one_toInt (w : Int64) : (max w 1).toInt = max w.toInt 1 := by
  have hmax : max w 1 = if w ≤ 1 then 1 else w := rfl
  have hone : (1 : Int64).toInt = 1 := rfl
  rw [hmax]
  split <;> rename_i h
  · rw [hone, max_eq_right]
    exact Int64.le_iff_toInt_le.mp h
  · rw [max_eq_left]
    rw [Int64.le_iff_toInt_le, hone, not_le] at h
    exact h.le

/-- **An operation keeps the two stores in step exactly if the pool can follow.** -/
theorem inSync_step_iff {s s' : AppState} {op : DownstreamOp} (h : s.InSync)
    (hstep : s.downstreamStep op = some s') : s'.InSync ↔ s.Keeps op := by
  have hdistinct := h.distinctKeys
  cases op with
  | add reply payload =>
      cases hstep
      rcases reply with e | now
      · exact iff_of_true h nofun
      · rw [InSync, Admin.addDownstreamKey, Db.addDownstreamKey, Admin.afterStatement_ok,
          KeyPool.weights_addKey hdistinct, Db.weights, KeyedTable.book_insertOrReplace, h,
          Db.weights, Book.put_inj, asU32_eq_iff]
        exact ⟨fun hfits _ => hfits, fun hfits => hfits rfl⟩
  | update reply key weight =>
      cases hstep
      rcases reply with e | now
      · exact iff_of_true h nofun
      · rw [InSync, Admin.updateDownstreamKey, Db.updateDownstreamKeyWeight,
          Admin.afterStatement_ok, KeyPool.weights_addKey hdistinct, h]
        by_cases hkey : key ∈ s.db.downstreamKeys.keys
        · rw [Db.weights, Db.weights, KeyedTable.book_update
            (f := fun r => { r with weight := max weight 1 })
            (x := (max weight 1).toInt) _ (fun _ => rfl) (fun _ => rfl) hkey,
            Book.put_inj, asU32_eq_iff, max_one_toInt]
          constructor
          · rintro ⟨-, hlt⟩ -
            exact ⟨hkey, (le_max_left _ _).trans_lt hlt⟩
          · intro hfits
            have hlt := (hfits rfl).2
            exact ⟨le_max_of_le_right (by decide), max_lt hlt (by decide)⟩
        · -- the table ignores the update, and the pool gains a key
          have hsame := KeyedTable.update_eq_self
            (f := fun r => { r with weight := max weight 1 }) (fun _ => rfl) hkey
          rw [Db.weights, Db.weights, hsame]
          refine iff_of_false (Book.put_ne_self ?_) fun hfits => hkey (hfits rfl).1
          rw [KeyedTable.book_keys]
          exact hkey
  | delete reply key =>
      cases hstep
      refine iff_of_true ?_ trivial
      rcases reply with e | now
      · exact h
      · rw [InSync, Admin.deleteDownstreamKey, Db.deleteDownstreamKey,
          Admin.afterStatement_ok, KeyPool.weights_removeKey, Db.weights,
          KeyedTable.book_delete, h]
        rfl

/-! ## The start -/

/-- The pool can follow the table at a start: a table that is seeded is given each key
once, and one that is loaded gives its keys back as they are and holds only weights that
fit in a `u32`. -/
def Loads (reading : TextReading) (config : Config) (db : Db) : Prop :=
  if db.downstreamKeys.rows = [] then
    (config.downstreamKeys.map DownstreamKeyConfig.key).Nodup
  else ∀ r ∈ db.downstreamKeys.rows,
    reading.read r.key = r.key ∧ 0 ≤ r.weight.toInt ∧ r.weight.toInt < 2 ^ 32

instance (reading : TextReading) (config : Config) (db : Db) :
    Decidable (Loads reading config db) :=
  inferInstanceAs (Decidable (if db.downstreamKeys.rows = [] then _ else _))

/-- The pair a configured key stands for. -/
def configured (c : DownstreamKeyConfig) : String × ℤ := (c.key, (c.weight.toNat : ℤ))

/-- Seeding an empty table puts the configured keys one after another. -/
theorem weights_seeded {boot : Boot} {config : Config} {db db' : Db}
    {kept : List DownstreamKeyConfig} (hempty : db.downstreamKeys.rows = [])
    (h : seed (fun n db dk =>
        db.addDownstreamKey (boot.addDownstreamKey n) dk.key (asI64 dk.weight))
      (fun downstreamKeysList dk => downstreamKeysList ++ [dk])
      0 config.downstreamKeys db [] = .ok (db', kept)) :
    kept = config.downstreamKeys ∧ db'.weights = Book.puts (kept.map configured) := by
  constructor
  · rw [seed_ok_kept h]
    rw [List.foldl_append_eq_append, ← List.flatMap_def, List.nil_append]
    exact List.flatMap_singleton' config.downstreamKeys
  · refine seed_ok_invariant
      (I := fun db kept => db.weights = Book.puts (kept.map configured)) ?_ ?_ h
    · intro n db db' kept dk _ hbook hadd
      obtain ⟨now, -, rfl⟩ := Db.execute_eq_ok.mp hadd
      rw [Db.weights, KeyedTable.book_insertOrReplace, asI64_toInt, List.map_append,
        Book.puts, List.foldl_append]
      exact congrArg (Book.put dk.key _) hbook
    · rw [Db.weights, KeyedTable.book, hempty]
      rfl

/-- What is read of rows says the same as the rows exactly if the keys are read back as
they are and the weights fit. -/
theorem coe_map_read_eq_iff {reading : TextReading} {rows : List DownstreamKeyModel}
    (hnodup : (rows.map DownstreamKeyModel.key).Nodup) :
    ((rows.map fun r => (reading.read r.key, ((asU32 r.weight).toNat : ℤ)) :
        List (String × ℤ)) : Book String ℤ)
        = (rows.map fun r => (r.key, r.weight.toInt) : List (String × ℤ)) ↔
      ∀ r ∈ rows, reading.read r.key = r.key ∧ 0 ≤ r.weight.toInt ∧
        r.weight.toInt < 2 ^ 32 := by
  have hsame (hread : ∀ r ∈ rows, reading.read r.key = r.key) :
      (rows.map fun r => (reading.read r.key, ((asU32 r.weight).toNat : ℤ)))
        = rows.map fun r => (r.key, ((asU32 r.weight).toNat : ℤ)) :=
    List.map_congr_left fun r hr => by rw [hread r hr]
  constructor
  · intro heq
    have hread : ∀ r ∈ rows, reading.read r.key = r.key := by
      have hkeys := congrArg (Multiset.map Prod.fst) heq
      rw [Multiset.map_coe, Multiset.map_coe, Multiset.coe_eq_coe, List.map_map,
        List.map_map] at hkeys
      have hsubset : rows.map DownstreamKeyModel.key
          ⊆ (rows.map DownstreamKeyModel.key).map reading.read := by
        rw [List.map_map]
        exact hkeys.symm.subset
      exact fun r hr => reading.read_eq_of_subset hsubset r.key (List.mem_map_of_mem hr)
    rw [hsame hread] at heq
    exact fun r hr =>
      ⟨hread r hr, (asU32_eq_iff _).mp ((Book.coe_map_eq_iff hnodup).mp heq r hr)⟩
  · intro hrows
    rw [hsame fun r hr => (hrows r hr).1]
    exact (Book.coe_map_eq_iff hnodup).mpr fun r hr => (asU32_eq_iff _).mpr (hrows r hr).2

/-- **A start leaves the two stores in step exactly if the pool can follow.** -/
theorem inSync_new_iff {boot : Boot} {config : Config} {db : Db} {s : AppState}
    (h : new boot config db = .ok s) : s.InSync ↔ Loads boot.reading config db := by
  obtain ⟨db₁, downstreamKeys, hclient, hdownstream, hpool⟩ := new_eq_ok h
  have hsame := downstreamKeys_of_loadClientKeys hclient
  rw [InSync, hpool, KeyPool.weights_new]
  cases hquery : boot.getDownstreamKeys with
  | error e =>
      rw [loadDownstreamKeys_of_error hquery] at hdownstream
      cases hdownstream
  | ok order =>
      by_cases hempty : db.downstreamKeys.rows = []
      · have hkeys : db₁.downstreamKeys.keys = [] := by
          rw [hsame, KeyedTable.keys, hempty, List.map_nil]
        rw [loadDownstreamKeys_of_nil hquery hkeys] at hdownstream
        obtain ⟨hkept, hbook⟩ := weights_seeded (by rw [hsame, hempty]) hdownstream
        rw [Loads, if_pos hempty, hbook, ← hkept, eq_comm]
        refine Book.puts_eq_coe_iff.trans ?_
        rw [List.map_map]
        rfl
      · have hkeys : db₁.downstreamKeys.keys ≠ [] := by
          rw [hsame, KeyedTable.keys, ne_eq, List.map_eq_nil_iff]
          exact hempty
        rw [loadDownstreamKeys_of_ne_nil hquery hkeys, hsame] at hdownstream
        obtain ⟨hdb, rfl⟩ := Prod.mk.inj (Except.ok.inj hdownstream)
        have hperm := order.perm db.downstreamKeys.rows
        have hbook : s.db.weights = ((order.arrange db.downstreamKeys.rows).map
            fun r => (r.key, r.weight.toInt) : List (String × ℤ)) := by
          rw [Db.weights, ← hdb, hsame, KeyedTable.book, Multiset.coe_eq_coe]
          exact (hperm.map _).symm
        have hnodup : ((order.arrange db.downstreamKeys.rows).map
            DownstreamKeyModel.key).Nodup :=
          (hperm.map _).nodup_iff.mpr db.downstreamKeys.nodup
        rw [Loads, if_neg hempty, hbook, List.map_map]
        refine (coe_map_read_eq_iff hnodup).trans ?_
        simp only [hperm.mem_iff]

/-! ## A whole run -/

/-- **The pool and the table stay in step exactly as long as the pool can follow**: at
the start and in every operation after it. -/
theorem always_inSync_iff (boot : Boot) (config : Config) (db : Db) {s : AppState}
    (h : new boot config db = .ok s) (ops : List DownstreamOp) :
    Runs.Always downstreamStep InSync s ops ↔
      Loads boot.reading config db ∧ Runs.Along downstreamStep Keeps s ops := by
  have hexact : Runs.Always downstreamStep InSync s ops ↔
      s.InSync ∧ Runs.Along downstreamStep Keeps s ops := by
    refine Runs.always_iff_along (fun s op _ s' => inSync_step_iff) ?_
    intro s op _ hnone
    cases op <;> cases hnone
  rw [hexact, inSync_new_iff h]

/-- The default configuration with these downstream keys. -/
def withDownstreamKeys (downstreamKeys : List DownstreamKeyConfig) : Config :=
  { Config.withoutFile with downstreamKeys }

/-- A key is seeded, given another weight, and deleted, and another one is added. -/
theorem always_inSync_small :
    ∃ s, new (.succeeding "now") (withDownstreamKeys [⟨"tp-1", 2⟩]) .empty = .ok s ∧
      Runs.Always downstreamStep InSync s
        [.update (.ok "now") "tp-1" 5, .delete (.ok "now") "tp-1",
          .add (.ok "now") ⟨"tp-2", 1⟩] :=
  ⟨_, rfl, (always_inSync_iff (.succeeding "now") (withDownstreamKeys [⟨"tp-1", 2⟩]) .empty
    rfl _).mpr ⟨by decide, by decide⟩⟩

/-- The stores drift apart when a weight of `-1` is added, when a key that is not there
is updated, and when a key is configured twice. -/
theorem not_always_inSync :
    (∃ s, new (.succeeding "now") (withDownstreamKeys []) .empty = .ok s ∧
        ¬ Runs.Always downstreamStep InSync s [.add (.ok "now") ⟨"tp-1", -1⟩]) ∧
      (∃ s, new (.succeeding "now") (withDownstreamKeys []) .empty = .ok s ∧
        ¬ Runs.Always downstreamStep InSync s [.update (.ok "now") "tp-1" 5]) ∧
      ∃ s, new (.succeeding "now") (withDownstreamKeys [⟨"tp-1", 1⟩, ⟨"tp-1", 2⟩]) .empty
          = .ok s ∧ ¬ Runs.Always downstreamStep InSync s [] := by
  refine ⟨⟨_, rfl, fun h => ?_⟩, ⟨_, rfl, fun h => ?_⟩, ⟨_, rfl, fun h => ?_⟩⟩
  · exact absurd (h.2 _ rfl) (by unfold Runs.Always InSync; decide)
  · exact absurd (h.2 _ rfl) (by unfold Runs.Always InSync; decide)
  · exact absurd h (by unfold Runs.Always InSync; decide)

end AppState

end XiaomiProxy
