/-
ZcashFaucet.Db.D1Proxy — the ledger over HTTP: `D1Driver` of `db/driver.ts`
and the proxy Worker of `worker/src/index.ts` it talks to.

The engine behind both drivers is a parameter. A statement runs whole or not
at all. What the bodies carry is JSON on both sides, and is passed as such:
writing it and parsing it again is `JSON.stringify` and `JSON.parse`.

A call may end before the Worker sees it or after it has answered, and
looks the same to the driver. `d1_call` says what one call is: the engine's
answer where the secret arrives and the exchange completes. `d1_runs_refine`
says what any number of them are: a run of the engine itself over some of the
statements, in their order, with every one in it that was answered.
-/
import ZcashFaucet.Lib.Bearer
import ZcashFaucet.Lib.Json

namespace ZcashFaucet.Db

open Lib

/-! ## The engine -/

inductive SqlParam
  | text (s : JsString)
  | number (q : ℚ)
  | null

def SqlParam.toJson : SqlParam → Json
  | .text s => .str s
  | .number q => .num (.finite q)
  | .null => .null

/-- What a statement gives: its rows and its counts. -/
structure StatementResult where
  rows : List (List (JsString × Json))
  changes : Nat
  lastRowId : Nat

/-- An engine over databases `σ`: a statement that fails changes nothing. -/
structure Engine (σ : Type) where
  exec : JsString → List Json → σ → σ × Except JsString StatementResult
  whole : ∀ sql params db e, (exec sql params db).2 = .error e → (exec sql params db).1 = db

structure Statement where
  sql : JsString
  params : List SqlParam

variable {σ : Type} (engine : Engine σ)

/-- A statement, run where the engine is. -/
def Engine.runs (s : Statement) (db : σ) : σ × Except JsString StatementResult :=
  engine.exec s.sql (s.params.map SqlParam.toJson) db

/-! ## The Worker -/

structure ProxyRequest where
  method : JsString
  authorization : Option JsString
  /-- `none` where it is no JSON. -/
  body : Option Json

inductive ProxyResponse
  | json (status : Nat) (body : Json)
  /-- The Worker threw. -/
  | thrown

/-- The loop of `safeEqual`. -/
def diffUnits : JsString → JsString → UInt16
  | a :: as, b :: bs => (a ^^^ b) ||| diffUnits as bs
  | _, _ => 0

def safeEqual (a b : JsString) : Bool := a.length == b.length && diffUnits a b == 0

def errorBody (message : JsString) : Json := .obj [(js "error", .str message)]

/-- `{ results, meta }` of what D1 returned. -/
def resultBody (r : StatementResult) : Json :=
  .obj
    [(js "results", .arr (r.rows.map .obj)),
      (js "meta", .obj [(js "changes", .num (.finite r.changes)), (js "last_row_id", .num (.finite r.lastRowId))])]

def bodyParams (body : Json) : List Json :=
  match body.field (js "params") with
  | some (.arr params) => params
  | _ => []

/-- `fetch`. -/
def workerFetch (proxySecret : JsString) (req : ProxyRequest) (db : σ) : σ × ProxyResponse :=
  if req.method ≠ js "POST" then (db, .json 405 (errorBody (js "POST only")))
  else
    let token := stripBearer (req.authorization.getD [])
    if proxySecret = [] ∨ safeEqual token proxySecret = false then (db, .json 401 (errorBody (js "unauthorized")))
    else
      match req.body with
      | none => (db, .json 400 (errorBody (js "invalid json")))
      | some .null => (db, .thrown)
      | some body =>
          match body.field (js "sql") with
          | some (.str sql) =>
              match engine.exec sql (bodyParams body) db with
              | (db, .ok r) => (db, .json 200 (resultBody r))
              | (db, .error message) => (db, .json 500 (errorBody message))
          | _ => (db, .json 400 (errorBody (js "sql (string) required")))

/-! ## The driver -/

/-- D1Driver, which its constructor refuses without a secret. -/
structure D1Driver where
  secret : JsString
  secret_ne : secret ≠ []

/-- What becomes of one exchange. -/
inductive Exchange
  | completes
  /-- It ends, by its timeout or otherwise, before the Worker has run. -/
  | lost (message : JsString)
  /-- It ends after that. -/
  | unanswered (message : JsString)

def statementBody (s : Statement) : Json :=
  .obj [(js "sql", .str s.sql), (js "params", .arr (s.params.map SqlParam.toJson))]

variable (numText : ℚ → JsString)

/-- What `query` makes of a response. -/
def readResponse : ProxyResponse → Except JsString Json
  | .json status body =>
      if 200 ≤ status ∧ status ≤ 299 then .ok body
      else .error (js "D1 proxy " ++ numText status ++ js ": " ++ (body.stringify numText).take 200)
  | .thrown => .error (js "D1 proxy " ++ numText 500 ++ js ": ")

/-- `query`. -/
def D1Driver.query (d : D1Driver) (proxySecret : JsString) (s : Statement) (exchange : Exchange) (db : σ) :
    σ × Except JsString Json :=
  match sendHeader (bearer d.secret) with
  | none => (db, .error (js "TypeError"))
  | some authorization =>
      match exchange, workerFetch engine proxySecret ⟨js "POST", some authorization, some (statementBody s)⟩ db with
      | .completes, (db, response) => (db, readResponse numText response)
      | .lost message, _ => (db, .error message)
      | .unanswered message, (db, _) => (db, .error message)

/-! What the three methods read of a reply. -/

def elementZero : Json → Option Json
  | .arr items => items.head?
  | .str s => s.head?.map fun c => .str [c]
  | .obj fields => (Json.obj fields).field (js "0")
  | _ => none

/-- `reply.results`, or the TypeError of a reply that is null. -/
def replyField (key : JsString) : Json → Except JsString (Option Json)
  | .null => .error (js "TypeError")
  | reply => .ok (reply.field key)

structure RunResult where
  changes : Json
  lastInsertRowid : Json

def readRun (reply : Json) : Except JsString RunResult := do
  let metaField ← replyField (js "meta") reply
  let count (key : JsString) : Json := (orElse (field? key metaField) (some (.num (.finite 0)))).getD .null
  return ⟨count (js "changes"), count (js "last_row_id")⟩

def readGet (reply : Json) : Except JsString (Option Json) := do
  let results ← replyField (js "results") reply
  return orElse (results.bind elementZero) none

def readAll (reply : Json) : Except JsString (List Json) := do
  match ← replyField (js "results") reply with
  | some (.arr rows) => return rows
  | _ => throw (js "D1 proxy returned no results array")

/-! ## The secret -/

theorem diffUnits_eq_zero_iff : ∀ {a b : JsString}, a.length = b.length → (diffUnits a b = 0 ↔ a = b)
  | [], [], _ => by simp [diffUnits]
  | a :: as, b :: bs, h => by
      have hrest := @diffUnits_eq_zero_iff as bs (Nat.succ.inj h)
      rw [diffUnits, UInt16.or_eq_zero_iff, UInt16.xor_eq_zero_iff, hrest, List.cons.injEq]

/-- The comparison says what `===` says. -/
theorem safeEqual_iff {a b : JsString} : safeEqual a b = true ↔ a = b := by
  rw [safeEqual, Bool.and_eq_true, beq_iff_eq, beq_iff_eq]
  constructor
  · rintro ⟨hlength, hdiff⟩
    exact (diffUnits_eq_zero_iff hlength).mp hdiff
  · rintro rfl
    exact ⟨rfl, (diffUnits_eq_zero_iff rfl).mpr rfl⟩

variable {engine numText}

/-- Nobody without the secret gets to the database. -/
theorem workerFetch_refuses {proxySecret : JsString} {req : ProxyRequest} (db : σ)
    (h : stripBearer (req.authorization.getD []) ≠ proxySecret ∨ proxySecret = []) :
    (workerFetch engine proxySecret req db).1 = db ∧
      ∃ status body, (workerFetch engine proxySecret req db).2 = .json status body ∧ ¬ status ≤ 299 := by
  unfold workerFetch
  split
  · exact ⟨rfl, _, _, rfl, by decide⟩
  · have hrefused : proxySecret = [] ∨ safeEqual (stripBearer (req.authorization.getD [])) proxySecret = false := by
      rcases h with hne | hempty
      · exact .inr (Bool.eq_false_iff.mpr fun heq => hne (safeEqual_iff.mp heq))
      · exact .inl hempty
    dsimp only
    rw [if_pos hrefused]
    exact ⟨rfl, _, _, rfl, by decide⟩

variable (numText) in
/-- What the engine gives, as the driver gets it. -/
def proxied (r : Except JsString StatementResult) : Except JsString Json :=
  match r with
  | .ok r => .ok (resultBody r)
  | .error message =>
      .error (js "D1 proxy " ++ numText 500 ++ js ": " ++ ((errorBody message).stringify numText).take 200)

/-- The Worker runs the statement it is asked to by one who has the secret. -/
theorem workerFetch_statement {proxySecret authorization : JsString} (hne : proxySecret ≠ [])
    (htoken : stripBearer authorization = proxySecret) (s : Statement) (db : σ) :
    workerFetch engine proxySecret ⟨js "POST", some authorization, some (statementBody s)⟩ db =
      match engine.runs s db with
      | (db, .ok r) => (db, .json 200 (resultBody r))
      | (db, .error message) => (db, .json 500 (errorBody message)) := by
  have hpass : ¬ (proxySecret = [] ∨ safeEqual (stripBearer ((some authorization).getD [])) proxySecret = false) := by
    rintro (hempty | hdiff)
    · exact hne hempty
    · rw [Option.getD_some, safeEqual_iff.mpr htoken] at hdiff
      cases hdiff
  unfold workerFetch
  dsimp only
  rw [if_neg (by simp), if_neg hpass]
  rfl

/-- One call, where the secret arrives as the one the Worker has. -/
theorem query_of_arrived {d : D1Driver} {proxySecret : JsString} (hne : proxySecret ≠ [])
    (harrived : arrived d.secret = some proxySecret) (s : Statement) (exchange : Exchange) (db : σ) :
    d.query engine numText proxySecret s exchange db =
      match exchange with
      | .completes => ((engine.runs s db).1, proxied numText (engine.runs s db).2)
      | .lost message => (db, .error message)
      | .unanswered message => ((engine.runs s db).1, .error message) := by
  obtain ⟨authorization, hsent, htoken⟩ := Option.map_eq_some_iff.mp harrived
  unfold D1Driver.query
  rw [hsent]
  dsimp only
  rw [workerFetch_statement hne htoken]
  rcases engine.runs s db with ⟨db', message | r⟩ <;> cases exchange <;> simp [readResponse, proxied]

/-- One call, where it does not. -/
theorem query_of_not_arrived {d : D1Driver} {proxySecret : JsString}
    (h : proxySecret = [] ∨ arrived d.secret ≠ some proxySecret) (s : Statement) (exchange : Exchange) (db : σ) :
    (d.query engine numText proxySecret s exchange db).1 = db ∧
      ∃ message, (d.query engine numText proxySecret s exchange db).2 = .error message := by
  unfold D1Driver.query
  cases hsent : sendHeader (bearer d.secret) with
  | none => exact ⟨rfl, _, rfl⟩
  | some authorization =>
    have htoken : stripBearer authorization ≠ proxySecret ∨ proxySecret = [] := by
      rcases h with hempty | hdiffers
      · exact .inr hempty
      · refine .inl fun heq => hdiffers ?_
        rw [arrived, hsent, Option.map_some, heq]
    obtain ⟨hdb, status, body, hresponse, hstatus⟩ :=
      @workerFetch_refuses σ engine proxySecret ⟨js "POST", some authorization, some (statementBody s)⟩ db htoken
    dsimp only
    rcases hfetch : workerFetch engine proxySecret ⟨js "POST", some authorization, some (statementBody s)⟩ db with
      ⟨db', response⟩
    rw [hfetch] at hdb hresponse
    dsimp only at hdb hresponse
    subst hdb hresponse
    cases exchange with
    | completes => exact ⟨rfl, _, if_neg fun hok => hstatus hok.2⟩
    | lost message => exact ⟨rfl, message, rfl⟩
    | unanswered message => exact ⟨rfl, message, rfl⟩

/-! ## One call, and many -/

/-- What the methods of the driver whose engine is at hand give. -/
def directRun (r : StatementResult) : RunResult := ⟨.num (.finite r.changes), .num (.finite r.lastRowId)⟩

def directGet (r : StatementResult) : Option Json := (r.rows.map Json.obj).head?

def directAll (r : StatementResult) : List Json := r.rows.map .obj

theorem read_resultBody (r : StatementResult) :
    readRun (resultBody r) = .ok (directRun r) ∧ readGet (resultBody r) = .ok (directGet r) ∧
      readAll (resultBody r) = .ok (directAll r) := by
  refine ⟨rfl, ?_, rfl⟩
  obtain ⟨rows, changes, lastRowId⟩ := r
  cases rows <;> rfl

/-- One call of the driver, with one secret on both sides. Where the secret
survives the header, a call that completes is the statement run by the engine
itself, and each method reads of the reply what it would read of the engine;
where it does not, every call is refused and changes nothing. -/
theorem d1_call (engine : Engine σ) (numText : ℚ → JsString) (d : D1Driver) (s : Statement) (db : σ) :
    if Sendable d.secret then
      (d.query engine numText d.secret s .completes db).1 = (engine.runs s db).1 ∧
        match (engine.runs s db).2 with
        | .ok r =>
            ((d.query engine numText d.secret s .completes db).2 >>= readRun) = .ok (directRun r) ∧
            ((d.query engine numText d.secret s .completes db).2 >>= readGet) = .ok (directGet r) ∧
            ((d.query engine numText d.secret s .completes db).2 >>= readAll) = .ok (directAll r)
        | .error _ => ∃ message, (d.query engine numText d.secret s .completes db).2 = .error message
    else
      ∀ exchange, (d.query engine numText d.secret s exchange db).1 = db ∧
        ∃ message, (d.query engine numText d.secret s exchange db).2 = .error message := by
  cases Classical.em (Sendable d.secret) with
  | inl hsendable =>
    rw [if_pos hsendable, query_of_arrived d.secret_ne ((arrives_iff d.secret_ne).mpr hsendable)]
    refine ⟨rfl, ?_⟩
    rcases (engine.runs s db).2 with message | r
    · exact ⟨_, rfl⟩
    · exact read_resultBody r
  | inr hlost =>
    rw [if_neg hlost]
    exact fun exchange => query_of_not_arrived (.inr fun h => hlost ((arrives_iff d.secret_ne).mp h)) s exchange db

/-- A run of the driver: the database, and the statements that were
answered. -/
def D1Driver.run (engine : Engine σ) (numText : ℚ → JsString) (d : D1Driver) (proxySecret : JsString)
    (calls : List (Statement × Exchange)) (db : σ) : σ × List Statement :=
  calls.foldl (fun done call =>
    let query := d.query engine numText proxySecret call.1 call.2 done.1
    (query.1, if query.2.toOption.isSome then done.2 ++ [call.1] else done.2)) (db, [])

/-- A run of the engine itself. -/
def Engine.run (engine : Engine σ) (statements : List Statement) (db : σ) : σ :=
  statements.foldl (fun db s => (engine.runs s db).1) db

theorem Engine.run_snoc (statements : List Statement) (s : Statement) (db : σ) :
    engine.run (statements ++ [s]) db = (engine.runs s (engine.run statements db)).1 := by
  rw [Engine.run, List.foldl_append]
  rfl

/-- One call is one statement of the engine or none, and one if it is
answered. -/
theorem query_runs_or_not (d : D1Driver) (proxySecret : JsString) (s : Statement) (exchange : Exchange) (db : σ) :
    (d.query engine numText proxySecret s exchange db).1 = (engine.runs s db).1 ∨
      (d.query engine numText proxySecret s exchange db).1 = db ∧
        (d.query engine numText proxySecret s exchange db).2.toOption.isSome = false := by
  by_cases h : proxySecret ≠ [] ∧ arrived d.secret = some proxySecret
  · rw [query_of_arrived h.1 h.2]
    cases exchange with
    | completes => exact .inl rfl
    | lost message => exact .inr ⟨rfl, rfl⟩
    | unanswered message => exact .inl rfl
  · have hrefused : proxySecret = [] ∨ arrived d.secret ≠ some proxySecret := by tauto
    obtain ⟨hdb, message, herror⟩ := @query_of_not_arrived σ engine numText d proxySecret hrefused s exchange db
    rw [herror]
    exact .inr ⟨hdb, rfl⟩

/-- Whatever the secrets are and whatever becomes of the exchanges: the
database is what the engine makes of some of the statements, each once and in
their order, and all of those that were answered are among them. -/
theorem d1_runs_refine (engine : Engine σ) (numText : ℚ → JsString) (d : D1Driver) (proxySecret : JsString)
    (calls : List (Statement × Exchange)) (db : σ) :
    ∃ ran : List Statement, ran.Sublist (calls.map Prod.fst) ∧
      (d.run engine numText proxySecret calls db).2.Sublist ran ∧
      (d.run engine numText proxySecret calls db).1 = engine.run ran db := by
  induction calls using List.reverseRecOn with
  | nil => exact ⟨[], .slnil, .slnil, rfl⟩
  | append_singleton calls call ih =>
    obtain ⟨ran, hsent, hanswered, hdb⟩ := ih
    rw [D1Driver.run, List.foldl_append, ← D1Driver.run, List.foldl_cons, List.foldl_nil, List.map_append]
    dsimp only
    rcases @query_runs_or_not σ engine numText d proxySecret call.1 call.2
      (d.run engine numText proxySecret calls db).1 with hran | ⟨hkept, hsilent⟩
    · refine ⟨ran ++ [call.1], hsent.append (.refl _), ?_, ?_⟩
      · split
        · exact hanswered.append (.refl _)
        · exact hanswered.trans (List.sublist_append_left ran _)
      · rw [hran, Engine.run_snoc, hdb]
    · refine ⟨ran, hsent.trans (List.sublist_append_left _ _), ?_, ?_⟩
      · rw [hsilent]
        exact hanswered
      · rw [hkept, hdb]

end ZcashFaucet.Db
