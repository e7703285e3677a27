import XiaomiProxy.Handlers.Traffic
import XiaomiProxy.Proxy.DownstreamHeaders

/-!
# Attaching downstream keys

`build_downstream_headers` unwraps the header value it makes of a key.  A key comes into
the pool from the configuration or the table at a start, and from the admin afterwards;
a posted key is trimmed, which takes nothing out of its middle, and a key in a path is
not.  No way in looks at control characters, which no header value has
(`attaches_iff`).

`always_attaches_iff` says what a run has to keep to so that every key attaches, and
every acquisition leads to a request and a report.
-/

namespace XiaomiProxy

namespace Forwarder

/-- The headers of every request can be built with the key. -/
def Attaches (key : String) : Prop :=
  ∀ original protocol, ∃ headers, buildDownstreamHeaders original key protocol = some headers

/-- **A key attaches exactly if it has no control character.** -/
theorem attaches_iff {key : String} : Attaches key ↔ HeaderValue.Clean key :=
  ⟨fun h => exists_build_iff.mp (h [] .openAI), fun h _ _ => exists_build_iff.mpr h⟩

end Forwarder

namespace KeyPool

variable {p : KeyPool} {key k : String}

theorem mem_keyNames_addKey {weight : UInt32} :
    k ∈ (p.addKey key weight).keyNames ↔ k = key ∨ k ∈ p.keyNames := by
  cases hentry : p.entryOf? key with
  | none =>
      rw [addKey_of_none hentry, keyNames, SharedVec.push_cells, List.map_append,
        List.mem_append, or_comm]
      exact or_congr_left List.mem_singleton
  | some existing =>
      rw [addKey_of_some hentry, p.keyNames_modify (f := PooledKey.reweigh weight)
        existing.ptr (fun _ => rfl)]
      refine (or_iff_right_of_imp ?_).symm
      rintro rfl
      rw [← entryOf?_key hentry]
      exact List.mem_map_of_mem (entryOf?_mem hentry)

theorem keyNames_removeKey_subset : (p.removeKey key).keyNames ⊆ p.keyNames :=
  List.map_subset _ (List.filter_subset_self _)

end KeyPool

namespace Traffic

/-- Every key of the pool attaches. -/
def AttachesAll (s : Traffic) : Prop :=
  ∀ key ∈ s.state.keyPool.keyNames, Forwarder.Attaches key

/-- What the admin puts into the pool has no control character. -/
def AdmitsClean (_ : Traffic) : TrafficOp → Prop
  | .admin (.add reply payload) =>
      reply.isOk = true → HeaderValue.Clean (Str.trim payload.key)
  | .admin (.update reply key _) => reply.isOk = true → HeaderValue.Clean key
  | .admin (.delete _ _) | .send _ _ | .answer _ _ _ | .recover _ => True

/-- A streamed request does not end in a transport error. -/
def GetsThrough (_ : Traffic) : TrafficOp → Prop
  | .answer sent _ (.error _) => sent.mode = .retried
  | _ => True

section Step

variable {s s' : Traffic} {op : TrafficOp}

theorem attachesAll_iff :
    AttachesAll s ↔ ∀ key ∈ s.state.keyPool.keyNames, HeaderValue.Clean key :=
  forall₂_congr fun _ _ => Forwarder.attaches_iff

/-- A report changes no key. -/
theorem keyNames_judged (now : Instant) (p : KeyPool) (acquired : AcquiredKey)
    (verdict : Option Bool) :
    (Forwarder.judged now p acquired verdict).keyNames = p.keyNames := by
  unfold Forwarder.judged
  split
  · exact p.keyNames_reportSuccess acquired
  · exact p.keyNames_reportFailure now acquired
  · rfl

/-- What an operation of the admin makes of the keys of the pool. -/
theorem clean_downstreamStep {state state' : AppState} {op : DownstreamOp}
    (hclean : ∀ key ∈ state.keyPool.keyNames, HeaderValue.Clean key)
    (hstep : state.downstreamStep op = some state') :
    (∀ key ∈ state'.keyPool.keyNames, HeaderValue.Clean key) ↔ s.AdmitsClean (.admin op) := by
  cases op with
  | add reply payload =>
      cases hstep
      rcases reply with e | now
      · exact iff_of_true hclean nofun
      · show (∀ key ∈ (state.keyPool.addKey (Str.trim payload.key)
          (asU32 payload.weight)).keyNames, HeaderValue.Clean key) ↔
            (true = true → HeaderValue.Clean (Str.trim payload.key))
        simp only [KeyPool.mem_keyNames_addKey, forall_eq_or_imp, forall_const]
        exact and_iff_left hclean
  | update reply key weight =>
      cases hstep
      rcases reply with e | now
      · exact iff_of_true hclean nofun
      · show (∀ k ∈ (state.keyPool.addKey key (asU32 (max weight 1))).keyNames,
          HeaderValue.Clean k) ↔ (true = true → HeaderValue.Clean key)
        simp only [KeyPool.mem_keyNames_addKey, forall_eq_or_imp, forall_const]
        exact and_iff_left hclean
  | delete reply key =>
      cases hstep
      refine iff_of_true ?_ trivial
      rcases reply with e | now
      · exact hclean
      · exact fun k hk => hclean k (KeyPool.keyNames_removeKey_subset hk)

/-- **A step keeps every key attachable exactly if it admits none with a control
character.** -/
theorem attachesAll_step (h : AttachesAll s) (hstep : s.step op = some s') :
    AttachesAll s' ↔ s.AdmitsClean op := by
  rw [attachesAll_iff] at h ⊢
  have hsame : s'.state.keyPool.keyNames = s.state.keyPool.keyNames →
      (∀ key ∈ s'.state.keyPool.keyNames, HeaderValue.Clean key) := by
    intro heq
    rw [heq]
    exact h
  cases op with
  | admin op =>
      obtain ⟨state, hadmin, rfl⟩ := Option.map_eq_some_iff.mp hstep
      exact clean_downstreamStep h hadmin
  | send mode request =>
      refine iff_of_true (hsame ?_) trivial
      have hkeys := s.state.keyPool.keyNames_acquireKey
      rcases hacquire : s.state.keyPool.acquireKey with ⟨p', e | acquired⟩ <;>
        rw [hacquire] at hkeys <;> simp only [step, hacquire] at hstep
      · cases hstep
        exact hkeys
      · split at hstep <;> cases hstep <;> exact hkeys
  | answer sent now outcome =>
      obtain ⟨-, hstep⟩ := Option.ite_none_right_eq_some.mp hstep
      cases hstep
      exact iff_of_true (hsame (keyNames_judged _ _ _ _)) trivial
  | recover task =>
      obtain ⟨-, hstep⟩ := Option.ite_none_right_eq_some.mp hstep
      cases hstep
      exact iff_of_true (hsame (s.state.keyPool.keyNames_recover task)) trivial

/-- Of an operation of the admin that is not carried out, nothing is asked: every one
is. -/
theorem admitsClean_of_disabled (h : s.step op = none) : s.AdmitsClean op := by
  cases op with
  | admin op => cases op <;> cases h
  | send _ _ | answer _ _ _ | recover _ => exact trivial

/-- Where every key attaches, only a streamed request that does not get through goes
without a report. -/
theorem reports_iff (h : AttachesAll s) (op : TrafficOp) :
    s.Reports op ↔ s.GetsThrough op := by
  cases op with
  | send mode request =>
      refine iff_of_true (fun k hk => ?_) trivial
      refine (Forwarder.downstreamRequest_isSome_iff s.state.config request).mpr
        (Forwarder.attaches_iff.mp (h k.val.key ?_))
      exact List.mem_map_of_mem (KeyPool.mem_of_selectKey hk).1
  | answer sent now outcome =>
      obtain ⟨acquired, mode⟩ := sent
      cases mode <;> cases outcome <;>
        simp [Reports, GetsThrough, Mode.verdict, Forwarder.retryVerdict,
          Forwarder.streamingVerdict]
  | admin _ | recover _ => exact Iff.rfl

end Step

/-- The keys of the pool after a start. -/
theorem clean_new_iff {boot : Boot} {config : Config} {db : Db} {state : AppState}
    (h : AppState.new boot config db = .ok state) :
    AttachesAll (start state) ↔
      ∀ key ∈ AppState.loadedDownstreams boot.reading config db, HeaderValue.Clean key := by
  rw [attachesAll_iff]
  show (∀ key ∈ state.keyPool.keyNames, HeaderValue.Clean key) ↔ _
  simp only [(AppState.perm_keyNames_of_new h).mem_iff]

/-- **In every state of a run every key attaches, and every acquisition that ended was
reported, exactly if no control character comes in with a key, and no streamed request
ends in a transport error.** -/
theorem always_attaches_iff (boot : Boot) (config : Config) (db : Db) {state : AppState}
    (h : AppState.new boot config db = .ok state) {ops : List TrafficOp} {t : Traffic}
    (hrun : Runs.run step (start state) ops = some t) :
    Runs.Always step AttachesAll (start state) ops ∧ t.reported = t.ended ↔
      (∀ key ∈ AppState.loadedDownstreams boot.reading config db, HeaderValue.Clean key) ∧
        Runs.Along step (fun s op => s.AdmitsClean op ∧ s.GetsThrough op) (start state) ops := by
  rw [ended_eq_reported_iff rfl hrun, Runs.along_and, ← clean_new_iff h]
  have hattaches : Runs.Always step AttachesAll (start state) ops ↔
      AttachesAll (start state) ∧ Runs.Along step AdmitsClean (start state) ops :=
    Runs.always_iff_along (fun _ _ _ _ hs hstep => attachesAll_step hs hstep)
      fun _ _ _ hnone => admitsClean_of_disabled hnone
  constructor
  · rintro ⟨halways, hreports⟩
    obtain ⟨hstart, hadmits⟩ := hattaches.mp halways
    exact ⟨hstart, hadmits,
      (Runs.along_congr_of_always (fun s op hs => reports_iff hs op) halways).mp hreports⟩
  · rintro ⟨hstart, hadmits, hgets⟩
    have halways := hattaches.mpr ⟨hstart, hadmits⟩
    exact ⟨halways,
      (Runs.along_congr_of_always (fun s op hs => reports_iff hs op) halways).mpr hgets⟩

/-- A call of a client of the OpenAI routes is answered. -/
def answeredCall : List TrafficOp :=
  [.send .retried Forwarder.completion,
    .answer { acquired := ⟨"tp-1"⟩, mode := .retried } 0
      (.ok (Response.ofStatus .OK))]

/-- A program with one downstream key, of printable characters. -/
theorem always_attaches_answeredCall :
    ∃ state t, AppState.new (.succeeding "now")
        (AppState.withDownstreamKeys [⟨"tp-1", 1⟩]) .empty = .ok state ∧
      Runs.run step (start state) answeredCall = some t ∧
      Runs.Always step AttachesAll (start state) answeredCall ∧ t.reported = t.ended := by
  have hclean : HeaderValue.Clean "tp-1" := by simp [HeaderValue.Clean]
  refine ⟨_, _, rfl, rfl, (always_attaches_iff (.succeeding "now")
    (AppState.withDownstreamKeys [⟨"tp-1", 1⟩]) .empty rfl rfl).mpr ⟨?_, ?_⟩⟩
  · intro key hkey
    obtain rfl : key = "tp-1" := List.mem_singleton.mp hkey
    exact hclean
  · exact Runs.along_cons.mpr ⟨⟨trivial, trivial⟩, fun _ _ =>
      Runs.along_cons.mpr ⟨⟨trivial, trivial⟩, fun _ _ => trivial⟩⟩

/-- The administrator adds a key with a line feed in it.  The second request is routed to
it: its acquisition ends without a request or a report, and the key stays in rotation. -/
theorem not_attaches_line_feed :
    ∃ state t, AppState.new (.succeeding "now")
        (AppState.withDownstreamKeys [⟨"tp-1", 1⟩]) .empty = .ok state ∧
      Runs.run step (start state) [.admin (.add (.ok "now") ⟨"tp\n2", 1⟩),
        .send .retried Forwarder.completion, .send .retried Forwarder.completion] = some t ∧
      ¬ AttachesAll t ∧ t.ended = {⟨"tp\n2"⟩} ∧ t.reported = 0 := by
  refine ⟨_, _, rfl, rfl, fun h => ?_, by decide +kernel, by decide +kernel⟩
  obtain ⟨headers, hbuild⟩ := h "tp\n2" (by decide +kernel) [] .openAI
  have hpanic : Forwarder.buildDownstreamHeaders [] "tp\n2" .openAI = none := by
    decide +kernel
  rw [hpanic] at hbuild
  cases hbuild

end Traffic

end XiaomiProxy
