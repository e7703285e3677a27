import XiaomiProxy.Lib.KeyedTable

/-!
# The database

The `client_keys` and `downstream_keys` tables of `storage/schema.rs` and the `Db`
methods of `storage/db.rs` that work on them.

A statement is carried out by libsql, so each method takes its reply: an error, after
which the tables are as they were, or success.  Of a statement that writes, success
comes with the text of `datetime('now')`, which new rows get as `created_at`; of a
query that orders its rows, with the order in which rows of one time come.

What libsql makes of a stored text when it reads it is a parameter too, a `TextReading`.
Statements bind and compare whole texts, but a local database gives a text back only up
to its first NUL.
-/

namespace XiaomiProxy

/-! ## Texts -/

/-- The text has no NUL in it. -/
def NoNul (s : String) : Prop := Char.ofNat 0 ∉ s.toList

instance : DecidablePred NoNul := fun s =>
  inferInstanceAs (Decidable (Char.ofNat 0 ∉ s.toList))

/-- How the texts of a database are read back: those without a NUL as they are, and any
text in such a way that reading it once more changes nothing. -/
structure TextReading where
  read : String → String
  read_of_noNul : ∀ s, NoNul s → read s = s
  read_read : ∀ s, read (read s) = read s

namespace TextReading

/-- Texts are read up to the first NUL, as from a local database. -/
def toFirstNul : TextReading where
  read s := String.ofList (s.toList.takeWhile (· ≠ Char.ofNat 0))
  read_of_noNul s h := by
    have hall : s.toList.takeWhile (· ≠ Char.ofNat 0) = s.toList :=
      List.takeWhile_eq_self_iff.mpr fun c hc => decide_eq_true fun heq => h (heq ▸ hc)
    rw [hall, String.ofList_toList]
  read_read s := by rw [String.toList_ofList, List.takeWhile_idem]

variable (reading : TextReading)

/-- Texts without a NUL are read back unchanged. -/
theorem map_of_noNul {l : List String} (h : ∀ s ∈ l, NoNul s) : l.map reading.read = l :=
  (List.map_congr_left fun s hs => reading.read_of_noNul s (h s hs)).trans (List.map_id l)

/-- Texts that are among what is read of some texts are read back unchanged. -/
theorem read_eq_of_subset {l l' : List String} (h : l ⊆ l'.map reading.read) :
    ∀ s ∈ l, reading.read s = s := by
  intro s hs
  obtain ⟨t, -, rfl⟩ := List.mem_map.mp (h hs)
  exact reading.read_read t

end TextReading

/-! ## The tables -/

structure ClientKeyModel where
  key : String
  description : Option String
  rateLimit : Option Int64
  createdAt : Option String
  deriving DecidableEq, Repr

structure DownstreamKeyModel where
  key : String
  weight : Int64
  createdAt : Option String
  deriving DecidableEq, Repr

/-- What a query makes of a row. -/
def ClientKeyModel.readBack (reading : TextReading) (r : ClientKeyModel) :
    ClientKeyModel where
  key := reading.read r.key
  description := r.description.map reading.read
  rateLimit := r.rateLimit
  createdAt := r.createdAt.map reading.read

def DownstreamKeyModel.readBack (reading : TextReading) (r : DownstreamKeyModel) :
    DownstreamKeyModel where
  key := reading.read r.key
  weight := r.weight
  createdAt := r.createdAt.map reading.read

/-- The tables of a database. -/
structure Db where
  clientKeys : KeyedTable ClientKeyModel.key
  downstreamKeys : KeyedTable DownstreamKeyModel.key
  deriving DecidableEq

namespace Db

/-- A database with the schema and no rows. -/
def empty : Db where
  clientKeys := .empty
  downstreamKeys := .empty

/-- The reply to a statement that writes. -/
abbrev Reply := Except String String

/-- `a` may stand before `b` in the order `created_at DESC`, in which `NULL` is
last. -/
def notBefore : Option String → Option String → Bool
  | _, none => true
  | none, some _ => false
  | some a, some b => b ≤ a

/-- How a query with `ORDER BY created_at DESC` arranges rows. -/
structure NewestFirst {α : Type} (createdAt : α → Option String) where
  arrange : List α → List α
  perm : ∀ rows, (arrange rows).Perm rows
  sorted : ∀ rows, (arrange rows).Pairwise fun a b => notBefore (createdAt a) (createdAt b)

theorem NewestFirst.arrange_eq_nil {α : Type} {createdAt : α → Option String}
    (order : NewestFirst createdAt) {rows : List α} :
    order.arrange rows = [] ↔ rows = [] := by
  rw [← List.length_eq_zero_iff, (order.perm rows).length_eq, List.length_eq_zero_iff]

/-- A query of a table that is not empty returns rows. -/
theorem NewestFirst.isEmpty_arrange {α κ : Type} {createdAt : α → Option String}
    (order : NewestFirst createdAt) {key : α → κ} {t : KeyedTable key} (h : t.keys ≠ []) :
    (order.arrange t.rows).isEmpty = false := by
  rw [List.isEmpty_eq_false_iff, ne_eq, order.arrange_eq_nil]
  exact mt List.map_eq_nil_iff.mpr h

theorem notBefore_total (a b : Option String) : notBefore a b ∨ notBefore b a := by
  cases a <;> cases b <;> simp [notBefore, String.le_total]

theorem notBefore_trans {a b c : Option String} (hab : notBefore a b = true)
    (hbc : notBefore b c = true) : notBefore a c = true := by
  cases a <;> cases b <;> cases c <;> simp_all [notBefore]
  exact String.le_trans hbc hab

/-- One such arrangement, by insertion. -/
def newestFirst {α : Type} (createdAt : α → Option String) : NewestFirst createdAt where
  arrange := List.insertionSort fun a b => notBefore (createdAt a) (createdAt b)
  perm rows := List.perm_insertionSort _ rows
  sorted rows :=
    have : Std.Total fun a b => notBefore (createdAt a) (createdAt b) = true :=
      ⟨fun _ _ => notBefore_total _ _⟩
    have : IsTrans α fun a b => notBefore (createdAt a) (createdAt b) = true :=
      ⟨fun _ _ _ => notBefore_trans⟩
    List.pairwise_insertionSort _ rows

/-- Carry out a statement that writes, unless the reply is an error. -/
def execute (reply : Reply) (db : Db) (statement : String → Db) : Db × Except String Unit :=
  match reply with
  | .error e => (db, .error e)
  | .ok now => (statement now, .ok ())

theorem execute_eq_ok {reply : Reply} {db db' : Db} {statement : String → Db} :
    db.execute reply statement = (db', .ok ()) ↔
      ∃ now, reply = .ok now ∧ statement now = db' := by
  cases reply <;> simp [execute]

/-- `Db::get_client_keys`. -/
def getClientKeys (reading : TextReading)
    (reply : Except String (NewestFirst ClientKeyModel.createdAt)) (db : Db) :
    Except String (List ClientKeyModel) :=
  reply.map fun order =>
    (order.arrange db.clientKeys.rows).map (ClientKeyModel.readBack reading)

/-- `Db::add_client_key`. -/
def addClientKey (reply : Reply) (db : Db) (key : String) (description : Option String)
    (rateLimit : Option Int64) : Db × Except String Unit :=
  db.execute reply fun now =>
    { db with
      clientKeys := db.clientKeys.insertOrReplace
        { key, description, rateLimit, createdAt := some now } }

/-- `Db::delete_client_key`. -/
def deleteClientKey (reply : Reply) (db : Db) (key : String) : Db × Except String Unit :=
  db.execute reply fun _ => { db with clientKeys := db.clientKeys.delete key }

/-- `Db::get_downstream_keys`. -/
def getDownstreamKeys (reading : TextReading)
    (reply : Except String (NewestFirst DownstreamKeyModel.createdAt)) (db : Db) :
    Except String (List DownstreamKeyModel) :=
  reply.map fun order =>
    (order.arrange db.downstreamKeys.rows).map (DownstreamKeyModel.readBack reading)

/-- `Db::add_downstream_key`. -/
def addDownstreamKey (reply : Reply) (db : Db) (key : String) (weight : Int64) :
    Db × Except String Unit :=
  db.execute reply fun now =>
    { db with
      downstreamKeys := db.downstreamKeys.insertOrReplace
        { key, weight, createdAt := some now } }

/-- `Db::delete_downstream_key`. -/
def deleteDownstreamKey (reply : Reply) (db : Db) (key : String) :
    Db × Except String Unit :=
  db.execute reply fun _ => { db with downstreamKeys := db.downstreamKeys.delete key }

/-- `Db::update_downstream_key_weight`, which succeeds when no row has the key. -/
def updateDownstreamKeyWeight (reply : Reply) (db : Db) (key : String) (weight : Int64) :
    Db × Except String Unit :=
  db.execute reply fun _ =>
    { db with
      downstreamKeys := db.downstreamKeys.update key (fun r => { r with weight := weight })
        fun _ => rfl }

/-- A query returns what is read of the rows of its table. -/
theorem getClientKeys_perm {reading : TextReading}
    {reply : Except String (NewestFirst ClientKeyModel.createdAt)} {db : Db}
    {rows : List ClientKeyModel} (h : db.getClientKeys reading reply = .ok rows) :
    rows.Perm (db.clientKeys.rows.map (ClientKeyModel.readBack reading)) := by
  cases reply with
  | error e => cases h
  | ok order =>
      cases h
      exact (order.perm _).map _

/-- The downstream keys and their weights, as integers. -/
def weights (db : Db) : Book String ℤ :=
  db.downstreamKeys.book fun r => r.weight.toInt

end Db

end XiaomiProxy
