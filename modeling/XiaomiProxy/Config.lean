import XiaomiProxy.RustStd

/-!
# Configuration

`Config` of `config.rs`: what `Config::load` reads from the configuration file
and from the environment, and `Config::mask_key`.
-/

namespace XiaomiProxy

structure AdminConfig where
  username : String := ""
  password : String := ""
  deriving DecidableEq, Repr

structure ServerConfig where
  host : String := "0.0.0.0"
  port : UInt16 := 8080
  deriving DecidableEq, Repr

structure DownstreamConfig where
  openaiBaseUrl : String
  anthropicBaseUrl : String
  timeoutSecs : UInt64 := 120
  maxRetries : UInt32 := 3
  retryBaseMs : UInt64 := 500
  deriving DecidableEq, Repr

structure ClientKeyConfig where
  key : String
  deriving DecidableEq, Repr

structure DownstreamKeyConfig where
  key : String
  weight : UInt32 := 1
  deriving DecidableEq, Repr

structure RateLimitConfig where
  requestsPerMinute : UInt32 := 60
  burstSize : UInt32 := 60
  deriving DecidableEq, Repr

structure DatabaseConfig where
  url : String := ""
  token : String := ""
  deriving DecidableEq, Repr

structure Config where
  server : ServerConfig := {}
  downstream : DownstreamConfig
  clientKeys : List ClientKeyConfig := []
  downstreamKeys : List DownstreamKeyConfig
  rateLimit : RateLimitConfig := {}
  database : DatabaseConfig := {}
  admin : AdminConfig := {}
  deriving DecidableEq, Repr

namespace Config

/-- The environment of the process: the variables that are set. -/
abbrev Env := String → Option String

/-- The configuration used when there is no configuration file. -/
def withoutFile : Config where
  downstream :=
    { openaiBaseUrl := "https://token-plan-sgp.xiaomimimo.com/v1"
      anthropicBaseUrl := "https://token-plan-sgp.xiaomimimo.com/anthropic" }
  downstreamKeys := []

/-- The client keys of `XIAOMI_PROXY_CLIENT_KEYS`. -/
def clientKeysOfEnv (keysStr : String) : List ClientKeyConfig :=
  (Str.split ',' keysStr).map fun s => { key := Str.trim s }

/-- The downstream keys of `XIAOMI_PROXY_DOWNSTREAM_KEYS`. -/
def downstreamKeysOfEnv (keysStr : String) : List DownstreamKeyConfig :=
  (Str.split ',' keysStr).map fun s => { key := Str.trim s, weight := 1 }

/-- `Config::load`.  `file path` is what reading and parsing the file at `path`
gives: `none` when there is no such file. -/
def load (env : Env) (file : String → Option (Except String Config)) :
    Except String Config := do
  let configPath := (env "XIAOMI_PROXY_CONFIG").getD "config.toml"
  let config ← (file configPath).getD (.ok withoutFile)
  -- of the variables, only the port is parsed, so only the port can fail
  let port ← match env "XIAOMI_PROXY_PORT" with
    | some port => Str.parseU16 port
    | none => .ok config.server.port
  return {
    server := { host := (env "XIAOMI_PROXY_HOST").getD config.server.host, port }
    downstream := { config.downstream with
      openaiBaseUrl :=
        (env "XIAOMI_PROXY_OPENAI_URL").getD config.downstream.openaiBaseUrl
      anthropicBaseUrl :=
        (env "XIAOMI_PROXY_ANTHROPIC_URL").getD config.downstream.anthropicBaseUrl }
    clientKeys :=
      ((env "XIAOMI_PROXY_CLIENT_KEYS").map clientKeysOfEnv).getD config.clientKeys
    downstreamKeys :=
      ((env "XIAOMI_PROXY_DOWNSTREAM_KEYS").map downstreamKeysOfEnv).getD
        config.downstreamKeys
    rateLimit := config.rateLimit
    database :=
      { url := (env "TURSO_DATABASE_URL").getD config.database.url
        token := (env "TURSO_AUTH_TOKEN").getD config.database.token }
    admin :=
      { username := (env "XIAOMI_PROXY_ADMIN_USERNAME").getD config.admin.username
        password := (env "XIAOMI_PROXY_ADMIN_PASSWORD").getD config.admin.password } }

/-- The client keys of a loaded configuration: those of the variable if it is set,
and those of the file otherwise. -/
theorem load_clientKeys {env : Env} {file : String → Option (Except String Config)}
    {config : Config} (h : load env file = .ok config) :
    ∃ read, (file ((env "XIAOMI_PROXY_CONFIG").getD "config.toml")).getD
        (.ok withoutFile) = .ok read ∧
      config.clientKeys
        = ((env "XIAOMI_PROXY_CLIENT_KEYS").map clientKeysOfEnv).getD read.clientKeys := by
  obtain ⟨read, hread, hload⟩ := Fallible.bind_eq_ok_iff.mp h
  refine ⟨read, hread, ?_⟩
  simp only at hload
  split at hload
  · obtain ⟨port, -, hconfig⟩ := Fallible.bind_eq_ok_iff.mp hload
    cases hconfig
    rfl
  · cases hload
    rfl

/-- `Config::mask_key`: the first and the last four bytes of a long key.  `none`
is the panic of a slice that starts or ends inside a character. -/
def maskKey (key : String) : Option String :=
  if key.utf8ByteSize ≤ 8 then some "***"
  else do
    let first ← Str.sliceTo key 4
    let last ← Str.sliceFrom key (key.utf8ByteSize - 4)
    return first ++ "..." ++ last

/-- An ASCII key has a mask. -/
theorem maskKey_of_ascii {key : String} (h : Str.Ascii key) :
    ∃ masked, maskKey key = some masked := by
  unfold maskKey
  split
  · exact ⟨_, rfl⟩
  · rename_i hlong
    rw [Str.utf8ByteSize_of_ascii h] at hlong ⊢
    rw [Str.sliceTo_of_ascii h (by omega), Str.sliceFrom_of_ascii h (Nat.sub_le _ 4)]
    exact ⟨_, rfl⟩

example : maskKey "tp-your-xiaomi-key-here" = some "tp-y...here" := by decide
example : maskKey "日本語日" = none := by decide

end Config

end XiaomiProxy
