import BenchLedger.Http.MediaType
import BenchLedger.Http.Parameters
import BenchLedger.Session.Basic

/-!
The service: requests to a store over HTTP. Errors share one envelope, and their status tells what
became of the request: below 500 nothing was changed, from 500 on the change is in memory and waits
to be stored.
-/

namespace BenchLedger.Http

structure Request where
  method : String
  uri : String
  contentType : Option String
  -- The bytes behind the head.
  body : List Nat

inductive Body where
  | empty
  | json (value : Json)
  -- The lines of the counters.
  | counters (lines : List String)
  -- A notice in words.
  | notice (text : String)

structure Response where
  status : Nat
  body : Body

structure ApiError where
  status : Nat
  -- Stays the same over versions.
  code : String
  message : String
  -- The field to be mended, for requests that were rejected.
  field : Option String

namespace ApiError

def ofPersistence (e : PersistenceError) : ApiError :=
  let status := match e with
    | .io .. | .timeout .. => 503
    | .undecodable .. | .backend .. => 500
  ⟨status, "PERSISTENCE_ERROR", e.message, none⟩

def ofFailure : Failure → ApiError
  | .rejected r => ⟨422, "VALIDATION_ERROR", r.message, some r.field⟩
  | .missing m => ⟨404, "NOT_FOUND", m.message, none⟩
  | .persistence e => ofPersistence e

def ofQueryFault (f : QueryFault) : ApiError :=
  ⟨400, "INVALID_QUERY", f.message, none⟩

def invalidBody (message : String) : ApiError :=
  ⟨400, "INVALID_BODY", message, none⟩

def metricsDisabled : ApiError :=
  ⟨404, "METRICS_DISABLED", "no metrics recorder installed", none⟩

def response (e : ApiError) (now : Int) : Response :=
  let time := match Calendar.Timestamp.ofMillis? now with
    | some t => t.text
    | none => ""
  ⟨e.status, .json (.object [
    ("error", .object [
      ("code", .string e.code),
      ("message", .string e.message),
      ("field", .orNull (e.field.map .string))]),
    ("meta", .object [("timestamp", .string time)])])⟩

end ApiError

/-! ### Routes -/

/-- The resources. Names of series are as they stand in the path. -/
inductive Route where
  | health
  | metrics
  | flush
  | seriesList
  | series (name : List Char)
  | entries (name : List Char)
  | latest (name : List Char)
  | range (name : List Char)
  | summary (name : List Char)
  | regression (name : List Char)
  | diff (name : List Char)
  deriving DecidableEq, Repr

namespace Route

/-- What can be asked of one series. -/
def ofSeries? (name : List Char) (aspect : String) : Option Route :=
  if aspect == "entries" then some (.entries name)
  else if aspect == "latest" then some (.latest name)
  else if aspect == "range" then some (.range name)
  else if aspect == "summary" then some (.summary name)
  else if aspect == "regression" then some (.regression name)
  else if aspect == "diff" then some (.diff name)
  else none

/-- The resource at a path. An empty name leads to no series, but to what is asked of one. -/
def ofPath? (path : List Char) : Option Route :=
  match Text.pieces (· == '/') path with
  | [[], page] =>
    if page == "health".toList then some .health
    else if page == "metrics".toList then some .metrics
    else none
  | [] :: api :: version :: rest =>
    if api == "api".toList && version == "v1".toList then
      match rest with
      | [page] =>
        if page == "series".toList then some .seriesList
        else if page == "flush".toList then some .flush
        else none
      | [page, name] =>
        if page == "series".toList && !name.isEmpty then some (.series name) else none
      | [page, name, aspect] =>
        if page == "series".toList then ofSeries? name (String.ofList aspect) else none
      | _ => none
    else none
  | _ => none

/-- Whether a resource takes what is sent to it; the others only answer. -/
def takesPost : Route → Bool
  | .flush | .entries _ => true
  | _ => false

/-- The series that a resource belongs to, if any. -/
def seriesName? : Route → Option (List Char)
  | .series n | .entries n | .latest n | .range n | .summary n | .regression n | .diff n => some n
  | .health | .metrics | .flush | .seriesList => none

def allows (r : Route) (method : String) : Bool :=
  if r.takesPost then method == "POST" else method == "GET" || method == "HEAD"

end Route

/-! ### Answers -/

structure Service where
  session : Session
  -- Whether counters are shown.
  showsCounters : Bool

def versionText : String := "0.1.0"

/-- What is answered: a status with a value, or an error. -/
abbrev Answer := Except ApiError (Nat × Body)

def okJson (v : Json) : Answer :=
  .ok (200, .json v)

def ofResult {α : Type} (encode : α → Json) : Except Failure α → Answer
  | .ok v => okJson (encode v)
  | .error f => .error (.ofFailure f)

def entriesJson (es : List CommitEntry) : Json :=
  .array (es.map CommitEntry.toJson)

def healthAnswer (s : Session) : Session × Answer :=
  let (s, stats) := s.stats
  let status := if stats.lastError.isSome then "degraded" else "ok"
  (s, okJson (.object [
    ("status", .string status),
    ("version", .string versionText),
    ("store", stats.toJson)]))

/-- The most bytes that a body may have: two mebibytes, the limit of the framework. -/
def bodyLimit : Nat := 2097152

/-- Stands in a text for bytes that are no character: a letter and an escape that stands for none.
In a string this can be passed over but not read, and elsewhere it is a fault. -/
def noCharacter : List Char :=
  "x\\udc00".toList

/-- The bytes of a body as a text. -/
def bodyText (bytes : List Nat) : List Char :=
  (Text.decodeUtf8 bytes).flatMap fun c => match c with
    | some c => [c]
    | none => noCharacter

/-- The entry in the body of a request. What follows it in the body does not count. -/
def bodyEntry (r : Request) : Except ApiError CommitEntry :=
  if !(r.contentType.any isJsonMediaType) then
    .error (.invalidBody "expected a body of type application/json")
  else if bodyLimit < r.body.length then .error (.invalidBody "the body is too long")
  else match Json.decodeLeading CommitEntry.decoder (bodyText r.body) with
    | .ok e => .ok e
    | .error fault => .error (.invalidBody ("the body is no commit entry: " ++ fault.label))

def ingestAnswer (s : Session) (series : String) (r : Request) : Session × Answer :=
  match bodyEntry r with
  | .error e => (s, .error e)
  | .ok e =>
    let (s, result) := s.ingestEntry series e
    (s, match result with
      | .error f => .error (.ofFailure f)
      | .ok position => .ok (201, .json (.object [
          ("status", .string "accepted"),
          ("series", .string series),
          ("commit", .string e.id),
          ("position", .natural position)])))

/-- Answers a query whose parameters can be read. -/
def queryAnswer {π α : Type} (s : Session) (parameters : Except QueryFault π) (kind : QueryKind)
    (answer : π → HistoryStore → Except Failure α) (encode : α → Json) : Session × Answer :=
  match parameters with
  | .error fault => (s, .error (.ofQueryFault fault))
  | .ok p =>
    let (s, result) := s.query kind (answer p)
    (s, ofResult encode result)

/-- Answers a request for a resource whose series, if it has one, is called `series`. -/
def answer (service : Service) (route : Route) (series : String) (query : List Char)
    (r : Request) : Session × Answer :=
  let s := service.session
  let ps := formPairs query
  match route with
  | .health => healthAnswer s
  | .metrics =>
    (s, if service.showsCounters then .ok (200, .counters s.counters.lines)
      else .error .metricsDisabled)
  | .flush =>
    let (s, result) := s.flush
    (s, ofResult FlushOutcome.toJson result)
  | .seriesList =>
    let (s, names) := s.query .series HistoryStore.seriesNames
    (s, okJson (.object [("series", .array (names.map .string))]))
  | .series _ =>
    (s, ofResult
      (fun v => .object [("name", .string v.name), ("entries", entriesJson v.entries)])
      (s.store.getSeries series))
  | .entries _ => ingestAnswer s series r
  | .latest _ =>
    queryAnswer s (latestCount ps) .latest (fun n store => store.latest series n) entriesJson
  | .range _ =>
    queryAnswer s (RangeParameters.ofPairs ps) .range
      (fun p store => store.range series p.first p.last) entriesJson
  | .summary _ =>
    let (s, result) := s.query .summary (·.summary series)
    (s, ofResult SeriesSummary.toJson result)
  | .regression _ =>
    queryAnswer s (RegressionParameters.ofPairs ps) .regression
      (fun p store => store.regression series p.benchmark p.baseline p.threshold p.polarity)
      RegressionResult.toJson
  | .diff _ =>
    queryAnswer s (DiffParameters.ofPairs ps) .diff
      (fun p store => store.diff series p.baseline p.candidate p.threshold p.polarities)
      CommitDiff.toJson

def Service.handle (service : Service) (r : Request) : Service × Response :=
  let target := Target.ofUri r.uri
  match Route.ofPath? target.path with
  | none => (service, ⟨404, .empty⟩)
  | some route =>
    if !route.allows r.method then (service, ⟨405, .empty⟩)
    else
      let finish (response : Response) : Response :=
        if r.method == "HEAD" then { response with body := .empty } else response
      match Text.ofUtf8? (percentDecode (route.seriesName?.getD [])) with
      | none => (service, finish ⟨400, .notice "the name of the series is not UTF-8"⟩)
      | some series =>
        let (session, result) := answer service route series target.query r
        let response := match result with
          | .ok (status, body) => ⟨status, body⟩
          | .error e => e.response session.wallClock
        ({ service with session }, finish response)

end BenchLedger.Http
