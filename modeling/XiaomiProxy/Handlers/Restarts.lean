import XiaomiProxy.Handlers.ClientKeyCache
import XiaomiProxy.Handlers.EmptyCredential
import XiaomiProxy.Seeding

/-!
# Revocation across restarts

A deployment whose starts all load the same configuration.  While the program runs, a
deleted key stays deleted.  But a start that finds the `client_keys` table empty takes
it for a first start and seeds it from the configuration, and the table is also empty
after its last key was deleted.  A start that loads the table accepts what it reads
there: a key that an earlier start seeded again, or on a local database the part before
the NUL of another one.

So a key that was deleted, and not added again since, is refused all along exactly if no
start that succeeds does either (`revoked_iff`).
-/

namespace XiaomiProxy

namespace DeploymentOp

/-- What an operation writes to the client keys.  One whose statement fails writes
nothing. -/
def write : DeploymentOp → Option (Write String)
  | .start _ _ _ => none
  | .addClientKey (.ok _) randStr payload =>
      some { key := Admin.newClientKey randStr payload, present := true }
  | .deleteClientKey (.ok _) key => some { key, present := false }
  | .addClientKey (.error _) _ _ | .deleteClientKey (.error _) _ => none

/-- The operation is no start, or a start that loads this configuration. -/
def Loads (config : Config) : DeploymentOp → Prop
  | .start _ env file => Config.load env file = .ok config
  | _ => True

end DeploymentOp

namespace Deployment

/-- The operation is no start that lets this key in: one that succeeds, and finds the
table empty while the key is configured, or reads the key in the table. -/
def KeepsOut (config : Config) (k : String) (d : Deployment) : DeploymentOp → Prop
  | .start boot _ _ => AppState.Completes boot config d.db →
      k ∉ AppState.loadedClients boot.reading config d.db
  | _ => True

instance (config : Config) (k : String) (d : Deployment) :
    DecidablePred (d.KeepsOut config k)
  | .start _ _ _ => inferInstanceAs (Decidable (_ → _))
  | .addClientKey _ _ _ | .deleteClientKey _ _ => isTrue trivial

/-- While the program runs, it refuses the key. -/
def Refuses (k : String) : Deployment → Prop
  | .stopped _ => True
  | .running state => Auth.authorize state.clientKeys (some k) = .error .unauthorized

section Step

variable {d d' : Deployment} {op : DeploymentOp} {config : Config} {k : String}

theorem refuses_running_iff {state : AppState} :
    (running state).Refuses k ↔ k ∉ state.clientKeys := by
  rw [Refuses, Auth.authorize]
  by_cases hmem : k ∈ state.clientKeys <;> simp [hmem]

/-- **What a start makes of a key**: it refuses it, or leaves at an error, exactly if it
does not let it in. -/
theorem refuses_start_iff (boot : Boot) {env : Config.Env}
    {file : String → Option (Except String Config)}
    (hload : Config.load env file = .ok config) :
    (start boot env file d.db).Refuses k ↔ d.KeepsOut config k (.start boot env file) := by
  rw [start, hload, KeepsOut, ← AppState.exists_new_iff]
  simp only
  rcases hnew : AppState.new boot config d.db with ⟨left, e⟩ | state
  · exact iff_of_true trivial fun ⟨s, hs⟩ => nomatch hs
  · rw [refuses_running_iff, AppState.mem_clientKeys_of_new hnew]
    exact ⟨fun hnot _ => hnot, fun hnot => hnot ⟨state, rfl⟩⟩

/-- **One operation**, which does not write the key, leaves it refused exactly if it is no
start that lets it in. -/
theorem refuses_step_iff (h : d.Refuses k) (hstep : d.step op = some d')
    (hload : op.Loads config) (hother : ∀ w ∈ op.write, w.key ≠ k) :
    d'.Refuses k ↔ d.KeepsOut config k op := by
  cases op with
  | start boot env file =>
      cases hstep
      exact refuses_start_iff boot hload
  | addClientKey reply randStr payload =>
      cases d with
      | stopped db => cases hstep
      | running state =>
          cases hstep
          refine iff_of_true ?_ trivial
          rcases reply with e | now
          · exact h
          · exact ((AppState.contained state (.ok now, .add randStr payload)).others k
              (hother _ rfl).symm).trans h
  | deleteClientKey reply key =>
      cases d with
      | stopped db => cases hstep
      | running state =>
          cases hstep
          refine iff_of_true ?_ trivial
          rcases reply with e | now
          · exact h
          · exact ((AppState.contained state (.ok now, .delete key)).others k
              (hother _ rfl).symm).trans h

/-- A deletion that succeeds leaves the key refused. -/
theorem refuses_delete {now : String}
    (hstep : d.step (.deleteClientKey (.ok now) k) = some d') : d'.Refuses k := by
  cases d with
  | stopped db => cases hstep
  | running state =>
      cases hstep
      exact refuses_running_iff.mpr fun hmem => (Finset.mem_erase.mp hmem).1 rfl

end Step

/-- **A deleted key is refused in every state since its deletion exactly if no start since
then lets it in.**  The history may begin with any database; `before` ends where the key
was deleted last, and nothing after that writes the key. -/
theorem revoked_iff (config : Config) (k now : String) (db : Db)
    (before after : List DeploymentOp) {m : Deployment}
    (hbefore : Runs.run step (stopped db) (before ++ [.deleteClientKey (.ok now) k]) = some m)
    (hload : ∀ op ∈ after, op.Loads config)
    (hlast : ∀ op ∈ after, ∀ w ∈ op.write, w.key ≠ k) :
    Runs.Always step (Refuses k) m after ↔ Runs.Along step (KeepsOut config k) m after := by
  obtain ⟨d, -, hdelete⟩ := Runs.run_append_eq_some.mp hbefore
  obtain ⟨m', hdelete, hm⟩ := Runs.run_cons_eq_some.mp hdelete
  cases hm
  have hexact : Runs.Always step (Refuses k) m after ↔
      m.Refuses k ∧ Runs.Along step (KeepsOut config k) m after := by
    refine Runs.always_iff_along (fun d op hop d' hrefuses hstep =>
      refuses_step_iff hrefuses hstep (hload op hop) (hlast op hop)) ?_
    intro d op _ hnone
    cases op with
    | start boot env file => cases hnone
    | addClientKey _ _ _ | deleteClientKey _ _ => exact trivial
  rw [hexact, and_iff_right (refuses_delete hdelete)]

/-- The configuration with the client key `sk-1` of the environment. -/
def oneKey : Config := { Config.withoutFile with clientKeys := [⟨"sk-1"⟩] }

/-- The addition of `sk-2`. -/
def addSecond : DeploymentOp :=
  .addClientKey (.ok "now") "" { key := some "sk-2", description := none, rateLimit := none }

/-- With another key in the table, a deleted key stays deleted across a restart. -/
theorem revoked_beside_another :
    ∃ m s, Runs.run step (stopped .empty) ([startWithKeys "sk-1", addSecond] ++
        [.deleteClientKey (.ok "now") "sk-1"]) = some m ∧
      Runs.run step m [startWithKeys "sk-1"] = some (running s) ∧
      Runs.Always step (Refuses "sk-1") m [startWithKeys "sk-1"] :=
  ⟨_, _, rfl, rfl, (revoked_iff oneKey "sk-1" "now" .empty [startWithKeys "sk-1", addSecond]
    [startWithKeys "sk-1"] rfl (List.forall_mem_singleton.mpr rfl)
    (List.forall_mem_singleton.mpr nofun)).mpr (by decide)⟩

/-- The only key is deleted, and the next start seeds it again. -/
theorem revoked_key_returns :
    ∃ m s, Runs.run step (stopped .empty) ([startWithKeys "sk-1"] ++
        [.deleteClientKey (.ok "now") "sk-1"]) = some m ∧
      Runs.run step m [startWithKeys "sk-1"] = some (running s) ∧
      Auth.authorize s.clientKeys (some "sk-1") = .ok { key := "sk-1" } :=
  ⟨_, _, rfl, rfl, by decide⟩

end Deployment

end XiaomiProxy
