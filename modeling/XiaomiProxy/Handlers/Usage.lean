import XiaomiProxy.Handlers.Completions
import XiaomiProxy.Storage.QueryLogs

/-!
# Token counts

The way of a token count: from the `usage` of a response (`Reports`) through the handler
that records it (`usage_of_spawned`) and the row in the database to the log that an
administrator reads.

A count is cut to 32 bits when it is extracted, and the total of an Anthropic message is
added up in 32 bits.  Nothing is lost after that, so the log has the counts of the response
exactly if they are below `2 ^ 32` (`survives_iff`).
-/

namespace XiaomiProxy

/-- The counts of a response, as integers. -/
structure Counts where
  prompt : Option ℕ
  completion : Option ℕ
  total : Option ℕ
  deriving DecidableEq, Repr

/-- The counts there are. -/
def Counts.toList (counts : Counts) : List ℕ :=
  counts.prompt.toList ++ counts.completion.toList ++ counts.total.toList

/-- The counts in a log. -/
def RequestLog.counts (log : RequestLog) : Counts where
  prompt := log.promptTokens.map UInt32.toNat
  completion := log.completionTokens.map UInt32.toNat
  total := log.totalTokens.map UInt32.toNat

/-- The counts in a record. -/
def RecordRequest.usage (r : RecordRequest) : Handlers.Usage :=
  (r.promptTokens, r.completionTokens, r.totalTokens)

namespace Handlers

/-- The usage the handlers of a protocol read out of a body. -/
def usageOf (serde : SerdeJson) : Protocol → Bytes → Usage
  | .openAI => extractOpenaiUsage serde
  | .anthropic => anthropicUsage serde

/-! ## What a response reports -/

/-- A field of the `usage` of a body. -/
def usageField (serde : SerdeJson) (body : Bytes) (name : String) : Option Json :=
  match serde.fromSlice body with
  | .ok json => (json.get "usage").bind (Json.get name)
  | .error _ => none

/-- A count as a body reports it: none, or an integer in the range of `u64`. -/
def ReportsCount (serde : SerdeJson) (body : Bytes) (name : String) (count : Option ℕ) :
    Prop :=
  match usageField serde body name with
  | none => count = none
  | some value => ∃ n : UInt64, value = .number (.posInt n) ∧ count = some n.toNat

/-- The counts a body reports.  An Anthropic message has no total of its own: it is the
sum of the other two, when both are there. -/
def Reports (serde : SerdeJson) (body : Bytes) (counts : Counts) : Protocol → Prop
  | .openAI => ReportsCount serde body "prompt_tokens" counts.prompt ∧
      ReportsCount serde body "completion_tokens" counts.completion ∧
      ReportsCount serde body "total_tokens" counts.total
  | .anthropic => ReportsCount serde body "input_tokens" counts.prompt ∧
      ReportsCount serde body "output_tokens" counts.completion ∧
      counts.total = counts.prompt.bind fun p => counts.completion.map fun c => p + c

/-- A log says of a response what was reported and recorded. -/
structure Survives (record : RecordRequest) (reported : Counts) (log : RequestLog) :
    Prop where
  counts : log.counts = reported
  statusCode : log.statusCode = record.statusCode
  latencyMs : log.latencyMs = record.latencyMs
  isStream : log.isStream = record.isStream

/-! ## What is extracted -/

section Extracted

variable {serde : SerdeJson} {body : Bytes} {name : String} {count : Option ℕ}
  {reported : Counts}

/-- A count is extracted modulo `2 ^ 32`. -/
theorem tokenCount_of_reports {json : Json} (hjson : serde.fromSlice body = .ok json)
    (h : ReportsCount serde body name count) :
    tokenCount (json.get "usage") name = count.map UInt32.ofNat := by
  unfold ReportsCount usageField at h
  rw [hjson] at h
  unfold tokenCount
  cases hfield : (json.get "usage").bind (Json.get name) with
  | none =>
      simp only [hfield] at h
      rw [h]
      rfl
  | some value =>
      simp only [hfield] at h
      obtain ⟨n, rfl, rfl⟩ := h
      refine congrArg some (UInt32.toNat_inj.mp ?_)
      rw [UInt64.toNat_toUInt32, UInt32.toNat_ofNat']

/-- A body that is no JSON reports nothing. -/
theorem count_eq_none_of_error {e : String} (hjson : serde.fromSlice body = .error e)
    (h : ReportsCount serde body name count) : count = none := by
  unfold ReportsCount usageField at h
  rw [hjson] at h
  exact h

/-- The counts are extracted modulo `2 ^ 32`, and so is a total that is a sum. -/
theorem usageOf_of_reports {protocol : Protocol} (h : Reports serde body reported protocol) :
    usageOf serde protocol body = (reported.prompt.map UInt32.ofNat,
      reported.completion.map UInt32.ofNat, reported.total.map UInt32.ofNat) := by
  cases protocol with
  | openAI =>
      obtain ⟨hprompt, hcompletion, htotal⟩ := h
      rw [usageOf, extractOpenaiUsage]
      cases hjson : serde.fromSlice body with
      | error e =>
          rw [count_eq_none_of_error hjson hprompt, count_eq_none_of_error hjson hcompletion,
            count_eq_none_of_error hjson htotal]
          rfl
      | ok json =>
          simp only [tokenCount_of_reports hjson hprompt,
            tokenCount_of_reports hjson hcompletion, tokenCount_of_reports hjson htotal]
  | anthropic =>
      obtain ⟨hprompt, hcompletion, htotal⟩ := h
      rw [usageOf, anthropicUsage, extractAnthropicUsage, htotal]
      cases hjson : serde.fromSlice body with
      | error e =>
          rw [count_eq_none_of_error hjson hprompt, count_eq_none_of_error hjson hcompletion]
          rfl
      | ok json =>
          simp only [tokenCount_of_reports hjson hprompt,
            tokenCount_of_reports hjson hcompletion]
          cases reported.prompt <;> cases reported.completion <;>
            simp [UInt32.ofNat_add]

/-- A count is what it was extracted as exactly if it fits. -/
theorem toNat_ofNat_eq_iff :
    (count.map UInt32.ofNat).map UInt32.toNat = count ↔ ∀ n ∈ count, n < 2 ^ 32 := by
  cases count with
  | none => simp
  | some n =>
      simp only [Option.map_some, Option.some.injEq, Option.mem_def, UInt32.toNat_ofNat',
        forall_eq']
      exact Nat.mod_eq_iff_lt (by decide)

end Extracted

/-! ## From the response to the log -/

/-- The body of a call that got past its first step was written. -/
theorem toVec_of_step {serde : SerdeJson} {body : Json} {bytes : Bytes}
    (h : some ((serde.toVec body).mapError AppError.badRequest) = some (.ok bytes)) :
    serde.toVec body = .ok bytes := by
  cases hbytes : serde.toVec body with
  | error e =>
      rw [hbytes] at h
      cases h
  | ok written =>
      rw [hbytes] at h
      cases h
      rfl

/-- **A handler records the usage of the body that was forwarded to it**, and the status of
the response. -/
theorem usage_of_spawned {env : Env} {protocol : Protocol} {path : String}
    {extract : Bytes → Usage} {clientKey : ClientKey} {headers : HeaderMap} {body : Json}
    {record : RecordRequest}
    (h : (modelCall env protocol path extract clientKey headers body).spawned
      = some record) :
    isStreaming body = false ∧ ∃ bytes respBody status respHeaders,
      env.serde.toVec body = .ok bytes ∧
      env.forwardRequest { protocol, path, headers, body := bytes }
        = some (.ok (respBody, status, respHeaders)) ∧
      record.usage = extract respBody ∧ record.statusCode = status.asU16 := by
  obtain ⟨bytes, hbytes, h⟩ := Handled.spawned_andThen h
  cases hstream : isStreaming body with
  | true =>
      -- a streamed call leaves no record
      rw [hstream, if_pos rfl] at h
      obtain ⟨response, -, h⟩ := Handled.spawned_andThen h
      obtain ⟨masked, -, h⟩ := Handled.spawned_andThen h
      cases h
  | false =>
      rw [hstream, if_neg Bool.false_ne_true] at h
      obtain ⟨⟨respBody, status, respHeaders⟩, hresponse, h⟩ := Handled.spawned_andThen h
      obtain ⟨masked, -, h⟩ := Handled.spawned_andThen h
      cases h
      exact ⟨rfl, bytes, respBody, status, respHeaders, toVec_of_step hbytes, hresponse,
        rfl, rfl⟩

/-- The log that is read of a request says what was recorded. -/
theorem log_of_read {reply : Db.Reply} {id : String} {logs logs' : RequestLogs}
    {record : RecordRequest} (hok : Db.recordRequest reply id logs record = (logs', .ok ()))
    (later : List RecordCall) {row : RequestLogRow}
    (hrow : row ∈ (Db.recordAll logs' later).rows) (hid : row.read.id = id) :
    ∃ now, row.read = record.log id now := by
  obtain ⟨now, hrows⟩ := Db.rows_of_recordRequest hok
  have hrecorded : record.row id now ∈ (Db.recordAll logs' later).rows := by
    refine (Db.rows_prefix_recordAll logs' later).subset ?_
    rw [hrows]
    exact List.mem_append_right _ (List.mem_singleton_self _)
  -- the id is the primary key
  have hsame : row = record.row id now :=
    List.inj_on_of_nodup_map (Db.recordAll logs' later).nodup hrow hrecorded hid
  exact ⟨now, by rw [hsame, RecordRequest.read_row]⟩

/-- **The token counts of a response survive exactly if all of them, and the total of an
Anthropic message, are below `2 ^ 32`.**  Status, latency and the stream flag always do. -/
theorem survives_iff (serde : SerdeJson) (protocol : Protocol) {respBody : Bytes}
    {reported : Counts} (hreports : Reports serde respBody reported protocol)
    {record : RecordRequest} (husage : record.usage = usageOf serde protocol respBody)
    {reply : Db.Reply} {id : String} {logs logs' : RequestLogs}
    (hok : Db.recordRequest reply id logs record = (logs', .ok ())) (later : List RecordCall)
    {queryReply : Except String Db.LogOrder} {date : String → Option String}
    {fromDay toDay : String} {limit offset : ℤ} {key model : Option String}
    {read : List RequestLog}
    (hquery : Db.queryLogs queryReply date (Db.recordAll logs' later) fromDay toDay limit
      offset key model = .ok read)
    {log : RequestLog} (hlog : log ∈ read) (hid : log.id = id) :
    Survives record reported log ↔ ∀ n ∈ reported.toList, n < 2 ^ 32 := by
  obtain ⟨row, hrow, rfl⟩ := Db.mem_queryLogs hquery hlog
  obtain ⟨now, hread⟩ := log_of_read hok later hrow hid
  rw [hread]
  rw [usageOf_of_reports hreports] at husage
  obtain ⟨hprompt, hrest⟩ := Prod.mk.inj husage
  obtain ⟨hcompletion, htotal⟩ := Prod.mk.inj hrest
  have hcounts : (record.log id now).counts = reported ↔
      ∀ n ∈ reported.toList, n < 2 ^ 32 := by
    have heq : (record.log id now).counts = ⟨(reported.prompt.map UInt32.ofNat).map UInt32.toNat,
        (reported.completion.map UInt32.ofNat).map UInt32.toNat,
        (reported.total.map UInt32.ofNat).map UInt32.toNat⟩ := by
      rw [← hprompt, ← hcompletion, ← htotal]
      rfl
    rw [heq, Counts.mk.injEq, toNat_ofNat_eq_iff, toNat_ofNat_eq_iff, toNat_ofNat_eq_iff,
      Counts.toList]
    simp only [List.forall_mem_append, Option.mem_toList, and_assoc, Option.mem_def]
  rw [← hcounts]
  exact ⟨Survives.counts, fun h => ⟨h, rfl, rfl, rfl⟩⟩

/-! ## Single requests -/

/-- The body of a response that reports a prompt of `2 ^ 32` tokens. -/
def longPrompt : Bytes :=
  HeaderValue.ofText "\x7b\"usage\":\x7b\"prompt_tokens\":4294967296\x7d\x7d"

/-- The body of a message of 12 tokens and 30. -/
def shortMessage : Bytes :=
  HeaderValue.ofText "\x7b\"usage\":\x7b\"input_tokens\":12,\"output_tokens\":30\x7d\x7d"

/-- What `serde_json` makes of the two. -/
def twoBodies : SerdeJson where
  toVec _ := .ok (HeaderValue.ofText "\x7b\x7d")
  fromSlice body :=
    if body = longPrompt then
      .ok (.object [("usage", .object [("prompt_tokens", .number (.posInt 4294967296))])])
    else if body = shortMessage then
      .ok (.object [("usage", .object [("input_tokens", .number (.posInt 12)),
        ("output_tokens", .number (.posInt 30))])])
    else .error "expected value at line 1 column 1"

/-- The record of a call of `sk-1` that is answered with a body after five milliseconds. -/
def recordOf (protocol : Protocol) (path : String) (respBody : Bytes) :
    Option RecordRequest :=
  (modelCall { serde := twoBodies
               forwardRequest := fun _ => some (.ok (respBody, .OK, []))
               forwardStreaming := fun _ => none
               elapsed := 5000000 }
    protocol path (usageOf twoBodies protocol) ⟨"sk-1"⟩ [] (.object [])).spawned

/-- The logs that are read when a record is inserted into an empty table. -/
def readBack (record : RecordRequest) : Except String (List RequestLog) :=
  Db.queryLogs (.ok (Db.newestFirst _)) Db.datePart
    (Db.recordRequest (.ok "2025-06-01 12:00:00") "id-1" .empty record).1
    "1970-01-01" "9999-12-31" 100 0 none none

/-- The record of such a call, with the usage of the body. -/
def recordWith (protocol : Protocol) (path : String) (usage : Usage) : RecordRequest where
  clientKey := "sk-1"
  protocol := protocol.asStr
  path
  model := some "unknown"
  statusCode := 200
  latencyMs := 5
  promptTokens := usage.1
  completionTokens := usage.2.1
  totalTokens := usage.2.2
  isStream := false

/-- The record of the short message, and of the response with the long prompt. -/
def shortRecord : RecordRequest :=
  recordWith .anthropic "/v1/messages" (some 12, some 30, some 42)

def longRecord : RecordRequest :=
  recordWith .openAI "/chat/completions" (some 0, none, none)

/-- The counts of the short message are read back, with their sum. -/
theorem survives_shortMessage :
    recordOf .anthropic "/v1/messages" shortMessage = some shortRecord ∧
      ∃ log, readBack shortRecord = .ok [log] ∧
        Survives shortRecord ⟨some 12, some 30, some 42⟩ log := by
  have hreports : Reports twoBodies shortMessage ⟨some 12, some 30, some 42⟩ .anthropic :=
    ⟨⟨12, rfl, rfl⟩, ⟨30, rfl, rfl⟩, rfl⟩
  have hok : Db.recordRequest (.ok "2025-06-01 12:00:00") "id-1" .empty shortRecord
      = ((Db.recordRequest (.ok "2025-06-01 12:00:00") "id-1" .empty shortRecord).1,
        .ok ()) := rfl
  have hread : readBack shortRecord
      = .ok [(shortRecord.row "id-1" "2025-06-01 12:00:00").read] := by decide +kernel
  exact ⟨by decide +kernel, _, hread, (survives_iff twoBodies .anthropic hreports rfl hok []
    hread (List.mem_singleton_self _) rfl).mpr (by decide)⟩

/-- A prompt of `2 ^ 32` tokens is read back as none at all. -/
theorem not_survives_longPrompt :
    Reports twoBodies longPrompt ⟨some 4294967296, none, none⟩ .openAI ∧
      recordOf .openAI "/chat/completions" longPrompt = some longRecord ∧
      ∃ log, readBack longRecord = .ok [log] ∧ log.promptTokens = some 0 ∧
        ¬ Survives longRecord ⟨some 4294967296, none, none⟩ log := by
  refine ⟨⟨⟨4294967296, rfl, rfl⟩, rfl, rfl⟩, by decide +kernel,
    (longRecord.row "id-1" "2025-06-01 12:00:00").read, by decide +kernel, rfl, fun h => ?_⟩
  have hprompt := congrArg Counts.prompt h.counts
  revert hprompt
  decide

end Handlers

end XiaomiProxy
