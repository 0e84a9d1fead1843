import Ainur.Lib.Sql

set_option autoImplicit false

/-! # The schema and the statements of the Postgres backend

The migrations of `orchestrator/api/migrations` in their order, as far as they name tables,
columns and unique keys, and the statements that the storage, the handlers and the replay worker
send, with the types that are bound to their parameters. Indices, defaults and checks are left
out. The analysis of a statement against the migrated schema is a computation.
-/

namespace Ainur.Storage

open Sql

/-- `20240411120000_init.sql`. -/
def initMigration : List Migration :=
  [.createTable ⟨"agents", [("id", .text), ("label", .text), ("created_at", .timestamptz)],
      [["id"]]⟩,
    .createTable ⟨"tasks",
      [("id", .uuid), ("client_task_id", .text), ("requester_id", .bytea),
        ("description", .text), ("task_type", .text), ("input_base64", .text),
        ("max_budget", .numeric), ("deadline", .timestamptz), ("status", .text),
        ("created_at", .timestamptz), ("updated_at", .timestamptz), ("stored_json", .jsonb)],
      [["id"]]⟩,
    .createTable ⟨"bids",
      [("id", .uuid), ("task_id", .uuid), ("agent_id", .bytea), ("value", .numeric),
        ("quality_score", .integer), ("completion_time", .bigint),
        ("created_at", .timestamptz), ("stored_json", .jsonb)],
      [["id"]]⟩,
    .createTable ⟨"results",
      [("id", .uuid), ("task_id", .uuid), ("agent_id", .bytea), ("output_base64", .text),
        ("completed_at", .timestamptz), ("proof", .bytea), ("created_at", .timestamptz),
        ("stored_json", .jsonb)],
      [["id"]]⟩,
    .createTable ⟨"chain_events",
      [("block_number", .bigint), ("event_index", .integer), ("pallet", .text),
        ("variant", .text), ("payload", .text), ("correlation_id", .text),
        ("created_at", .timestamptz)],
      [["block_number", "event_index"]]⟩,
    .createTable ⟨"chain_cursors",
      [("id", .integer), ("block_number", .bigint), ("event_index", .integer),
        ("updated_at", .timestamptz)],
      [["id"]]⟩]

/-- `20240411123000_outbound_extrinsics.sql` and `20251122013000_outbox_retry.sql`. -/
def outboxMigration : List Migration :=
  [.createTable ⟨"outbound_extrinsics",
      [("correlation_id", .text), ("pallet", .text), ("call", .text), ("payload", .text),
        ("status", .text), ("created_at", .timestamptz), ("updated_at", .timestamptz)],
      [["correlation_id"]]⟩,
    .addColumn "outbound_extrinsics" "retry_count" .integer,
    .addColumn "outbound_extrinsics" "last_error" .text,
    .addColumn "outbound_extrinsics" "processed_at" .timestamptz]

/-- `20251122020000_chain_columns.sql`. -/
def chainColumnsMigration : List Migration :=
  [.addColumn "agents" "chain_agent_id" .bigint, .addColumn "agents" "account_address" .text,
    .addColumn "tasks" "chain_task_id" .bigint, .addColumn "tasks" "result_hash" .text]

/-- `20251122031000_outbox_status_enum.sql`. -/
def uniqueMigration : List Migration :=
  [.addUnique "bids" ["task_id", "agent_id"], .addUnique "results" ["task_id", "agent_id"]]

/-- `20251122032000_outbox_correlation.sql`. -/
def correlationMigration : List Migration :=
  [.addColumn "outbound_extrinsics" "tx_hash" .text,
    .addColumn "outbound_extrinsics" "chain_task_id" .bigint,
    .addColumn "outbound_extrinsics" "chain_agent_id" .bigint,
    .addColumn "chain_events" "correlation_id" .text]

/-- `20251122040000_bid_result_enrichment.sql` and `20251122050000_task_matched.sql`. -/
def enrichmentMigration : List Migration :=
  [.addColumn "bids" "cost" .numeric, .addColumn "bids" "quality_score" .integer,
    .addColumn "bids" "nonce" .text, .addColumn "results" "proof_base64" .text,
    .addColumn "results" "resources" .jsonb, .addColumn "results" "chain_task_id" .bigint,
    .addColumn "tasks" "matched_agent" .bigint]

/-- The schema after `sqlx::migrate!`. -/
def schema : Schema :=
  migrate (initMigration ++ outboxMigration ++ chainColumnsMigration ++ uniqueMigration ++
    correlationMigration ++ enrichmentMigration)

/-! ## Statements of the storage -/

/-- The columns and parameters of `insert_task` and `upsert_task`. -/
def taskValues : List (String × ColumnType) :=
  [("id", .uuid), ("client_task_id", .text), ("requester_id", .bytea), ("description", .text),
    ("task_type", .text), ("input_base64", .text), ("max_budget", .bigint),
    ("deadline", .timestamptz), ("status", .text), ("created_at", .timestamptz),
    ("updated_at", .timestamptz), ("stored_json", .jsonb)]

def registerAgentSql : Statement :=
  .insert "agents" [("id", .text), ("label", .text)] (some ⟨some ["id"], [("label", .text)]⟩)

def insertTaskSql : Statement := .insert "tasks" taskValues (some ⟨some ["id"], []⟩)

def upsertTaskSql : Statement :=
  .insert "tasks" taskValues (some ⟨some ["id"],
    [("client_task_id", .text), ("requester_id", .bytea), ("description", .text),
      ("task_type", .text), ("input_base64", .text), ("max_budget", .numeric),
      ("deadline", .timestamptz), ("status", .text), ("updated_at", .timestamptz),
      ("stored_json", .jsonb)]⟩)

def insertResultSql : Statement :=
  .insert "results"
    [("id", .uuid), ("task_id", .uuid), ("agent_id", .bytea), ("output_base64", .text),
      ("completed_at", .timestamptz), ("proof", .bytea), ("stored_json", .jsonb)]
    (some ⟨some ["task_id"],
      [("id", .uuid), ("agent_id", .bytea), ("output_base64", .text),
        ("completed_at", .timestamptz), ("proof", .bytea), ("stored_json", .jsonb),
        ("created_at", .timestamptz)]⟩)

/-! ## Statements of the handlers and of the replay worker -/

/-- The lookup of `chain_task_id` in `submit_bid` and `submit_result`; the id is bound as text. -/
def taskChainIdSql : Statement := .select "tasks" ["chain_task_id"] [("id", .text)]

/-- The lookup of `chain_agent_id` there. -/
def agentChainIdSql : Statement := .select "agents" ["chain_agent_id"] [("id", .text)]

/-- On `AgentRegistered`: the agent under its `did:ainur` name. -/
def mirrorAgentSql : Statement :=
  .insert "agents"
    [("id", .text), ("label", .text), ("chain_agent_id", .bigint), ("account_address", .text)]
    (some ⟨some ["id"],
      [("chain_agent_id", .bigint), ("account_address", .text), ("label", .text),
        ("updated_at", .timestamptz)]⟩)

/-- On `AgentRegistered`: rows with the account address and no chain id. -/
def linkAgentSql : Statement :=
  .update "agents" [("chain_agent_id", .bigint), ("updated_at", .timestamptz)]
    [("account_address", .text)] false

/-- On `TaskCreated`: the stub row of the chain task. -/
def mirrorTaskSql : Statement :=
  .insert "tasks"
    [("id", .text), ("client_task_id", .text), ("requester_id", .bytea), ("description", .text),
      ("task_type", .text), ("input_base64", .text), ("max_budget", .bigint),
      ("deadline", .timestamptz), ("status", .text), ("created_at", .timestamptz),
      ("updated_at", .timestamptz), ("stored_json", .jsonb), ("chain_task_id", .bigint)]
    (some ⟨some ["chain_task_id"],
      [("requester_id", .bytea), ("description", .text), ("status", .text),
        ("updated_at", .timestamptz), ("stored_json", .jsonb)]⟩)

/-- On `TaskCreated`: `UPDATE tasks .. WHERE chain_task_id IS NULL ORDER BY created_at LIMIT 1`. -/
def linkTaskSql : Statement :=
  .update "tasks" [("chain_task_id", .bigint), ("updated_at", .timestamptz)] [] true

/-- On `BidSubmitted` and `TaskCompleted`: the task of a chain id. -/
def taskByChainIdSql : Statement := .select "tasks" ["id"] [("chain_task_id", .bigint)]

/-- On `BidSubmitted`: the agent of a chain id. -/
def agentByChainIdSql : Statement := .select "agents" ["id"] [("chain_agent_id", .bigint)]

/-- On `BidSubmitted`: the bid, with its id and the id of its task as text. -/
def mirrorBidSql : Statement :=
  .insert "bids"
    [("id", .text), ("task_id", .text), ("agent_id", .bytea), ("value", .bigint),
      ("quality_score", .integer), ("completion_time", .bigint), ("created_at", .timestamptz),
      ("stored_json", .jsonb)]
    (some ⟨none, []⟩)

/-- On `TaskCompleted`: the result, with its id and the id of its task as text. -/
def mirrorResultSql : Statement :=
  .insert "results"
    [("id", .text), ("task_id", .text), ("agent_id", .bytea), ("output_base64", .text),
      ("completed_at", .timestamptz), ("proof", .bytea), ("stored_json", .jsonb),
      ("chain_task_id", .bigint), ("created_at", .timestamptz)]
    (some ⟨some ["task_id"],
      [("output_base64", .text), ("completed_at", .timestamptz), ("stored_json", .jsonb),
        ("updated_at", .timestamptz)]⟩)

/-- On `TaskCompleted`: status and hash of the task. -/
def completeTaskSql : Statement :=
  .update "tasks" [("status", .text), ("result_hash", .text), ("updated_at", .timestamptz)]
    [("chain_task_id", .bigint)] false

/-- On `TaskMatched`: status and agent of the task. -/
def matchTaskSql : Statement :=
  .update "tasks" [("status", .text), ("matched_agent", .bigint), ("updated_at", .timestamptz)]
    [("chain_task_id", .bigint)] false

/-- A database as its users see it: the statements it accepts, and the columns that come back
as text. -/
structure Database where
  accepts : Statement → Bool
  readsText : String → String → Bool

/-- The database after the migrations. -/
def migrated : Database where
  accepts := Sql.accepts schema
  readsText table column := Sql.reads schema table column .text

/-- A database in which every statement that is in the grammar takes effect, with ids as text. -/
def asWritten : Database where
  accepts
    | .update _ _ _ ordered => !ordered
    | _ => true
  readsText _ _ := true

/-- No schema makes `linkTaskSql` a statement of the grammar. -/
theorem linkTask_refused (schema : Schema) : accepts schema linkTaskSql = false := by
  simp only [accepts, linkTaskSql]
  cases schema.find? fun t => t.name = "tasks" <;> simp

/-! ### Statements that the migrated schema refuses -/

/-- `agents` has no column `updated_at`. -/
theorem migrated_mirrorAgent : migrated.accepts mirrorAgentSql = false := by decide

theorem migrated_linkAgent : migrated.accepts linkAgentSql = false := by decide

/-- The `id` of a task is a `uuid` and has no `=` with a text. -/
theorem migrated_taskChainId : migrated.accepts taskChainIdSql = false := by decide

end Ainur.Storage
