import BenchLedger.Http.Service
import BenchLedger.Proofs.BackgroundWork
import BenchLedger.Proofs.IngestOutcomes
import BenchLedger.Proofs.RereadDocuments
import BenchLedger.Proofs.Utf8Text

/-!
What a request leaves behind, told from the status of its response. Main statement:
`Service.effects_follow_status`: a request that only asks and one that is refused leave no trace, an
entry that is sent is stored if it is not refused, and a flush changes no series.
-/

namespace BenchLedger

/-! ### Entries that are listed -/

theorem filter_id_eq_singleton {es : List CommitEntry} {e : CommitEntry} (member : e ∈ es)
    (distinct : (es.map CommitEntry.id).Nodup) : es.filter (·.id == e.id) = [e] := by
  induction es with
  | nil => cases member
  | cons f es ih =>
    obtain ⟨other, rest⟩ := List.nodup_cons.1 distinct
    rcases List.mem_cons.1 member with rfl | later
    · have none : es.filter (·.id == e.id) = [] := by
        refine List.filter_eq_nil_iff.2 fun f listed same => other ?_
        exact eq_of_beq same ▸ List.mem_map_of_mem listed
      simp only [List.filter_cons, beq_self_eq_true, if_true, none]
    · have known : e.id ∈ es.map CommitEntry.id := List.mem_map_of_mem later
      have skipped : f.id ≠ e.id := fun same => other (same ▸ known)
      simp [skipped, ih later rest]

/-- Readers find an entry that was taken in once. -/
theorem HistoryStore.Took.listed {s s' : HistoryStore} {series : String} {e : CommitEntry}
    {p : Position} (took : s.Took s' series e p) :
    ∃ es, s'.getSeries series = .ok ⟨series, es⟩ ∧ es.filter (·.id == e.id) = [e] := by
  obtain ⟨after, stored, here⟩ := took.here
  have found : s'.getSeries series = .ok ⟨series, after.view⟩ := by
    simp only [getSeries, stored, Series.snapshot]
  exact ⟨after.view, found, filter_id_eq_singleton ((here.view e).2 (.inl rfl)) here.distinct.2⟩

/-- An ingestion that could not be saved leaves the error of its flush in the store. -/
theorem Session.lastError_of_ingestEntry {s : Session} {series : String} {e : CommitEntry}
    {error : PersistenceError} (rest : s.AtRest)
    (failed : (s.ingestEntry series e).2 = .error (.persistence error)) :
    (s.ingestEntry series e).1.store.lastError.isSome = true := by
  cases checked : validateEntry series e with
  | error r =>
    rw [ingestEntry_of_invalid checked] at failed
    cases failed
  | ok _ =>
    rw [ingestEntry_of_valid checked] at failed ⊢
    have rest' : (s.afterAppend series e).AtRest := (rest.appended (.put ..)).count _
    by_cases onAppend : (s.afterAppend series e).store.config.policy = .onAppend
    · rw [settle_of_onAppend onAppend] at failed ⊢
      cases flushed : (s.afterAppend series e).flush.2 with
      | ok outcome =>
        rw [flushed] at failed
        cases failed
      | error failure =>
        rw [flushed] at failed
        cases failed
        rw [lastError_of_flush rest' flushed]
        rfl
    · rw [settle_of_other onAppend] at failed
      cases failed

namespace Http

/-! ### Requests and resources -/

/-- A request reaches a resource that takes it. If the resource belongs to a series, then to the one
called `series`. -/
structure Request.Reaches (r : Request) (route : Route) (series : String) : Prop where
  path : Route.ofPath? (Target.ofUri r.uri).path = some route
  allowed : route.allows r.method = true
  name : Text.ofUtf8? (percentDecode (route.seriesName?.getD [])) = some series

/-- The body of a request is an entry that may enter a series. -/
structure Request.Sends (r : Request) (series : String) (e : CommitEntry) : Prop where
  body : bodyEntry r = .ok e
  valid : validateEntry series e = .ok ()

/-- The response that carries an answer. -/
def Response.ofAnswer (now : Int) : Answer → Response
  | .ok (status, body) => ⟨status, body⟩
  | .error e => e.response now

@[simp] theorem Response.status_ofAnswer_ok (now : Int) (status : Nat) (body : Body) :
    (ofAnswer now (.ok (status, body))).status = status :=
  rfl

@[simp] theorem Response.status_ofAnswer_error (now : Int) (e : ApiError) :
    (ofAnswer now (.error e)).status = e.status :=
  rfl

namespace Service

variable {service : Service} {r : Request} {route : Route} {series : String}

theorem post_of_takesPost {name : String} (reaches : r.Reaches route name)
    (takes : route.takesPost = true) : r.method = "POST" := by
  have allowed := reaches.allowed
  rw [Route.allows, takes] at allowed
  exact eq_of_beq allowed

theorem session_handle (reaches : r.Reaches route series) :
    (service.handle r).1.session
      = (answer service route series (Target.ofUri r.uri).query r).1 := by
  simp only [handle, reaches.path, reaches.allowed, reaches.name]
  rfl

theorem response_handle (reaches : r.Reaches route series) (shown : r.method ≠ "HEAD") :
    (service.handle r).2
      = .ofAnswer (answer service route series (Target.ofUri r.uri).query r).1.wallClock
          (answer service route series (Target.ofUri r.uri).query r).2 := by
  have withBody : (r.method == "HEAD") = false := beq_eq_false_iff_ne.2 shown
  simp only [handle, reaches.path, reaches.allowed, reaches.name, withBody, Bool.not_true,
    Bool.false_eq_true, if_false]
  cases (answer service route series (Target.ofUri r.uri).query r).2 <;> rfl

theorem handle_of_unreached (unreached : ∀ route series, ¬r.Reaches route series) :
    (service.handle r).1 = service := by
  cases path : Route.ofPath? (Target.ofUri r.uri).path with
  | none => simp only [handle, path]
  | some route =>
    cases allowed : route.allows r.method with
    | false => simp [handle, path, allowed]
    | true =>
      cases name : Text.ofUtf8? (percentDecode (route.seriesName?.getD [])) with
      | none => simp [handle, path, allowed, name]
      | some series => exact absurd ⟨path, allowed, name⟩ (unreached route series)

/-! ### Answers that change nothing -/

theorem untouched_queryAnswer {π α : Type} (s : Session) (parameters : Except QueryFault π)
    (kind : QueryKind) (ask : π → HistoryStore → Except Failure α) (encode : α → Json) :
    s.Untouched (queryAnswer s parameters kind ask encode).1 := by
  cases parameters with
  | error fault => exact .refl s
  | ok p => exact .count s (·.addQuery kind)

/-- Resources that take nothing change nothing, whatever they answer. -/
theorem untouched_answer (reached : service.session.Reached) (asks : route.takesPost = false)
    (series : String) (query : List Char) (r : Request) :
    service.session.Untouched (answer service route series query r).1 := by
  cases route with
  | flush => cases asks
  | entries name => cases asks
  | health => exact .stats reached
  | metrics => exact .refl _
  | series name => exact .refl _
  | seriesList => exact .count _ (·.addQuery .series)
  | summary name => exact .count _ (·.addQuery .summary)
  | latest name => exact untouched_queryAnswer ..
  | range name => exact untouched_queryAnswer ..
  | regression name => exact untouched_queryAnswer ..
  | diff name => exact untouched_queryAnswer ..

/-! ### Entries that are sent -/

theorem status_of_bodyEntry {e : ApiError} (faulty : bodyEntry r = .error e) : e.status = 400 := by
  unfold bodyEntry at faulty
  split at faulty
  · cases faulty
    rfl
  split at faulty
  · cases faulty
    rfl
  split at faulty
  · cases faulty
  · cases faulty
    rfl

/-- The bytes of a text are that text. -/
theorem bodyText_utf8Bytes (cs : List Char) : bodyText (Text.utf8Bytes cs) = cs := by
  rw [bodyText, Text.decodeUtf8_utf8Bytes, List.flatMap_map]
  exact List.flatMap_singleton' cs

/-- An entry that is sent as it is written is read, unless it is too long for a body. -/
theorem bodyEntry_toJson {e : CommitEntry} (storable : e.Storable) (style : Json.Style)
    (typed : r.contentType.any isJsonMediaType = true)
    (body : r.body = Text.utf8Bytes (e.toJson.write style 0))
    (fits : r.body.length ≤ bodyLimit) : bodyEntry r = .ok e.reread := by
  have literals : ∀ x ∈ e.values, (Json.Number.real x).ReadAs (.real (Json.reread x)) :=
    fun x value => (Json.readNumber_real (storable.finite x value)).2
  have readable : e.toJson.Readable :=
    CommitEntry.readable_toJson fun x value => (literals x value).legible
  have decoded : CommitEntry.decoder (.ofWritten e.toJson) = .ok e.reread :=
    CommitEntry.decoder_toJson_mapValues storable.toWellTyped literals
  simp only [bodyEntry, typed, Bool.not_true, Bool.false_eq_true, if_false, Nat.not_lt.2 fits]
  rw [body, bodyText_utf8Bytes, Json.decodeLeading_write _ style readable, decoded]

theorem status_ofPersistence (e : PersistenceError) : 500 ≤ (ApiError.ofPersistence e).status := by
  cases e <;> simp [ApiError.ofPersistence]

/-- What is said of an entry that was accepted. -/
def acceptedBody (series : String) (e : CommitEntry) (p : Position) : Body :=
  .json (.object [
    ("status", .string "accepted"),
    ("series", .string series),
    ("commit", .string e.id),
    ("position", .natural p)])

/-- The outcomes of a request that sends an entry. -/
inductive Sent (s : Session) (series : String) (r : Request) : Session → Answer → Prop where
  | refused {s' : Session} {e : ApiError} (status : 400 ≤ e.status ∧ e.status < 500)
      (invalid : ∀ e, ¬r.Sends series e) (untouched : s.Untouched s') :
      Sent s series r s' (.error e)
  | stored {s' : Session} {e : CommitEntry} {p : Position} (sends : r.Sends series e)
      (took : s.store.Took s'.store series (normalizeEntry s.ingest e) p) :
      Sent s series r s' (.ok (201, acceptedBody series e p))
  -- The flush after the append has failed.
  | unsaved {s' : Session} {e : CommitEntry} {p : Position} {fault : ApiError}
      (sends : r.Sends series e)
      (took : s.store.Took s'.store series (normalizeEntry s.ingest e) p)
      (status : 500 ≤ fault.status) (free : s'.site.turns = [])
      (dirty : s'.store.isDirty = true) (failed : s'.store.lastError.isSome = true) :
      Sent s series r s' (.error fault)

theorem sent_ingestAnswer {s : Session} (reached : s.Reached) (series : String) (r : Request) :
    Sent s series r (ingestAnswer s series r).1 (ingestAnswer s series r).2 := by
  unfold ingestAnswer
  cases body : bodyEntry r with
  | error e =>
    have status := status_of_bodyEntry body
    refine .refused (by rw [status]; decide) (fun f sends => ?_) (.refl s)
    cases body.symm.trans sends.body
  | ok e =>
    cases checked : validateEntry series e with
    | error fault =>
      simp only [Session.ingestEntry_of_invalid checked]
      refine .refused (by simp [ApiError.ofFailure]) (fun f sends => ?_) (.count s _)
      cases body.symm.trans sends.body
      cases checked.symm.trans sends.valid
    | ok _ =>
      obtain ⟨p, took, ends⟩ := Session.ends_of_valid reached checked
      generalize ended : (s.ingestEntry series e).2 = result at ends
      cases ends with
      | stored _ =>
        simp only [ended]
        exact .stored ⟨body, checked⟩ took
      | unsaved onAppend misses =>
        have rest : s.AtRest := reached.invariant.2 (by rw [onAppend]; decide)
        simp only [ended]
        exact .unsaved ⟨body, checked⟩ took (status_ofPersistence _)
          (rest.ingestEntry series e).turns misses.dirty
          (Session.lastError_of_ingestEntry rest ended)

/-! ### What is seen afterwards -/

/-- Whoever gets a series finds an entry in it, and no other of its commit. -/
def Lists (service : Service) (series : String) (e : CommitEntry) : Prop :=
  ∃ es, es.filter (·.id == e.id) = [e] ∧
    ∀ r name, r.method = "GET" → r.Reaches (.series name) series →
      (service.handle r).2 = ⟨200, .json (.object [
        ("name", .string series), ("entries", entriesJson es)])⟩

/-- Whoever asks for the health of the service learns that the store is not saved, since the last
flush has failed. -/
def Degraded (service : Service) : Prop :=
  ∃ stats : StoreStats, stats.dirty = true ∧ stats.lastError.isSome = true ∧
    ∀ r name, r.method = "GET" → r.Reaches .health name →
      (service.handle r).2 = ⟨200, .json (.object [
        ("status", .string "degraded"), ("version", .string versionText),
        ("store", stats.toJson)])⟩

theorem lists_of_took {s : HistoryStore} {e : CommitEntry} {p : Position}
    (took : s.Took service.session.store series e p) : service.Lists series e := by
  obtain ⟨es, found, once⟩ := took.listed
  refine ⟨es, once, fun r name get reaches => ?_⟩
  rw [response_handle reaches (by rw [get]; decide)]
  simp only [answer, found, ofResult]
  rfl

theorem degraded_of_failed (free : service.session.site.turns = [])
    (dirty : service.session.store.isDirty = true)
    (failed : service.session.store.lastError.isSome = true) : service.Degraded := by
  refine ⟨service.session.store.stats, dirty, failed, fun r name get reaches => ?_⟩
  rw [response_handle reaches (by rw [get]; decide)]
  simp only [answer, healthAnswer, Session.stats_of_free free]
  simp only [HistoryStore.stats, failed, if_true]
  rfl

/-- The entry in the body of a request stands at its position in the series, in normal form, and is
listed. -/
structure Stores (service after : Service) (series : String) (r : Request) (e : CommitEntry)
    (p : Position) : Prop extends r.Sends series e where
  took : service.session.store.Took after.session.store series
    (normalizeEntry service.session.ingest e) p
  lists : after.Lists series (normalizeEntry service.session.ingest e)

/-! ### Requests -/

theorem reached_queryAnswer {s : Session} (reached : s.Reached) {π α : Type}
    (parameters : Except QueryFault π) (kind : QueryKind)
    (ask : π → HistoryStore → Except Failure α) (encode : α → Json) :
    (queryAnswer s parameters kind ask encode).1.Reached := by
  cases parameters with
  | error fault => exact reached
  | ok p => exact reached.asked kind (ask p)

theorem reached_answer (reached : service.session.Reached) (route : Route) (series : String)
    (query : List Char) (r : Request) : (answer service route series query r).1.Reached := by
  cases route with
  | health => exact reached.looked
  | metrics => exact reached
  | flush => exact reached.flushed
  | series name => exact reached
  | seriesList => exact reached.asked .series HistoryStore.seriesNames
  | summary name => exact reached.asked .summary (·.summary series)
  | entries name =>
    simp only [answer, ingestAnswer]
    cases bodyEntry r with
    | error e => exact reached
    | ok e => exact reached.ingested series e
  | latest name => exact reached_queryAnswer reached ..
  | range name => exact reached_queryAnswer reached ..
  | regression name => exact reached_queryAnswer reached ..
  | diff name => exact reached_queryAnswer reached ..

theorem reached_handle (reached : service.session.Reached) (r : Request) :
    (service.handle r).1.session.Reached := by
  by_cases reaches : ∃ route series, r.Reaches route series
  · obtain ⟨route, series, reaches⟩ := reaches
    rw [session_handle reaches]
    exact reached_answer reached ..
  · rw [handle_of_unreached fun route series here => reaches ⟨route, series, here⟩]
    exact reached

theorem sent_handle (reached : service.session.Reached) {name : List Char}
    (reaches : r.Reaches (.entries name) series) :
    ∃ result, Sent service.session series r (service.handle r).1.session result ∧
      (service.handle r).2 = .ofAnswer (service.handle r).1.session.wallClock result := by
  have post := post_of_takesPost reaches rfl
  refine ⟨(ingestAnswer service.session series r).2, ?_, ?_⟩
  · rw [session_handle reaches]
    exact sent_ingestAnswer reached series r
  · rw [session_handle reaches]
    exact response_handle reaches (by rw [post]; decide)

/-- A flush is refused only for the sake of its save. -/
theorem status_of_flush {s : Session} (now : Int)
    (refused : 400 ≤ (Response.ofAnswer now (ofResult FlushOutcome.toJson s.flush.2)).status) :
    500 ≤ (Response.ofAnswer now (ofResult FlushOutcome.toJson s.flush.2)).status := by
  cases flushed : s.flush.2 with
  | ok outcome =>
    rw [flushed] at refused
    simp [ofResult, okJson] at refused
  | error failure =>
    obtain ⟨error, rfl⟩ := Session.error_of_flush flushed
    exact status_ofPersistence error

/-- Only the resources that take something can change anything, and they do not if they refuse
it. -/
theorem untouched_handle (reached : service.session.Reached)
    (spares : r.method ≠ "POST" ∨
      400 ≤ (service.handle r).2.status ∧ (service.handle r).2.status < 500) :
    service.session.Untouched (service.handle r).1.session := by
  by_cases reaches : ∃ route series, r.Reaches route series
  · obtain ⟨route, series, reaches⟩ := reaches
    cases takes : route.takesPost with
    | false =>
      rw [session_handle reaches]
      exact untouched_answer reached takes ..
    | true =>
      have post := post_of_takesPost reaches takes
      obtain ⟨low, high⟩ := spares.resolve_left (absurd post)
      cases route with
      | flush =>
        rw [response_handle reaches (by rw [post]; decide)] at low high
        exact absurd (status_of_flush _ low) (Nat.not_le.2 high)
      | entries name =>
        obtain ⟨result, sent, response⟩ := sent_handle reached reaches
        rw [response] at low high
        cases sent with
        | refused _ _ untouched => exact untouched
        | stored _ _ => simp at low
        | unsaved _ _ status _ _ _ => exact absurd status (Nat.not_le.2 high)
      | _ => cases takes
  · rw [handle_of_unreached fun route series here => reaches ⟨route, series, here⟩]
    exact .refl _

/-- What a request leaves behind can be told from the status of its response. A request that only
asks, and one that is answered with a status of 4xx, leave nothing but counters; a look at the flush
state may find that a background flusher has finished meanwhile. An entry that is sent is refused
just if it is not valid; otherwise it is accepted, and listed once at the position that is returned,
or it is stored and listed all the same but not saved, which the service admits. A flush changes no
series, whatever comes of it. -/
theorem effects_follow_status (reached : service.session.Reached) (r : Request) :
    (service.handle r).1.session.Reached ∧
    (r.method ≠ "POST" ∨
        400 ≤ (service.handle r).2.status ∧ (service.handle r).2.status < 500 →
      service.session.Untouched (service.handle r).1.session) ∧
    (∀ name series, r.Reaches (.entries name) series →
      ((service.handle r).2.status = 201 ∨ 400 ≤ (service.handle r).2.status) ∧
      (400 ≤ (service.handle r).2.status ∧ (service.handle r).2.status < 500 ↔
        ∀ e, ¬r.Sends series e) ∧
      ((service.handle r).2.status = 201 →
        ∃ e p, service.Stores (service.handle r).1 series r e p ∧
          (service.handle r).2.body = acceptedBody series e p) ∧
      (500 ≤ (service.handle r).2.status →
        ∃ e p, service.Stores (service.handle r).1 series r e p ∧
          (service.handle r).1.session.store.isDirty = true ∧ (service.handle r).1.Degraded)) ∧
    ∀ series, r.Reaches .flush series →
      (service.handle r).1.session.store.memory = service.session.store.memory := by
  refine ⟨reached_handle reached r, untouched_handle reached, fun name series reaches => ?_,
    fun series reaches => ?_⟩
  · obtain ⟨result, sent, response⟩ := sent_handle reached reaches
    rw [response]
    cases sent with
    | refused status invalid _ =>
      refine ⟨.inr status.1, ⟨fun _ => invalid, fun _ => status⟩, fun created => ?_,
        fun failed => absurd failed (Nat.not_le.2 status.2)⟩
      rw [Response.status_ofAnswer_error] at created
      omega
    | stored sends took =>
      refine ⟨.inl rfl, ⟨fun refused => ?_, fun invalid => absurd sends (invalid _)⟩,
        fun _ => ⟨_, _, ⟨sends, took, lists_of_took took⟩, rfl⟩, fun failed => ?_⟩
      · simp at refused
      · simp at failed
    | unsaved sends took status free dirty failed =>
      refine ⟨.inr (Nat.le_trans (by decide) status),
        ⟨fun refused => absurd status (Nat.not_le.2 refused.2),
          fun invalid => absurd sends (invalid _)⟩, fun created => ?_,
        fun _ => ⟨_, _, ⟨sends, took, lists_of_took took⟩, dirty,
          degraded_of_failed free dirty failed⟩⟩
      rw [Response.status_ofAnswer_error] at created
      omega
  · rw [session_handle reaches]
    exact (Session.KeepsMemory.flush service.session).memory

/-- A service whose first save fails. -/
def unluckyService : Service :=
  ⟨Session.unluckySession, false⟩

/-- A request that sends a text to a series. -/
def sending (text : List Char) : Request :=
  ⟨"POST", "/api/v1/series/s/entries", some "application/json", Text.utf8Bytes text⟩

def asking (uri : String) : Request :=
  ⟨"GET", uri, none, []⟩

def compositeRunText : List Char :=
  "\x7b\"commit\":\x7b\"id\":\"aaaa\",\"timestamp\":\"2024-01-01T00:00:00Z\",".toList ++
  "\"author\":\x7b\"name\":\"unknown\",\"email\":\"\"\x7d,".toList ++
  "\"committer\":\x7b\"name\":\"unknown\",\"email\":\"\"\x7d\x7d,".toList ++
  "\"date\":5,\"tool\":\"go\",".toList ++
  "\"benches\":[\x7b\"name\":\"b\",\"value\":1,\"unit\":\"ns/op\\t8 B/op\"\x7d]\x7d".toList

/-- The first entry cannot be saved, what is sent next is refused, and then the entry is
accepted. -/
theorem effects_follow_status_of_unluckyService :
    ∃ first second third, unluckyService.handle (sending compositeRunText) = first ∧
      first.1.handle (sending ['?']) = second ∧
      second.1.handle (sending compositeRunText) = third ∧
      (first.2.status = 500 ∧
        ∃ e p, unluckyService.Stores first.1 "s" (sending compositeRunText) e p ∧
          ∃ stats : StoreStats, stats.dirty = true ∧
            (first.1.handle (asking "/health")).2 = ⟨200, .json (.object [
              ("status", .string "degraded"), ("version", .string versionText),
              ("store", stats.toJson)])⟩) ∧
      (second.2.status = 400 ∧ first.1.session.Untouched second.1.session) ∧
      third.2.status = 201 ∧
        ∃ e p, second.1.Stores third.1 "s" (sending compositeRunText) e p ∧
          ∃ es, es.filter (·.id == e.id) = [normalizeEntry second.1.session.ingest e] ∧
            (third.1.handle (asking "/api/v1/series/s")).2 = ⟨200, .json (.object [
              ("name", .string "s"), ("entries", entriesJson es)])⟩ := by
  have begun : unluckyService.session.Reached := Session.reached_unluckySession
  have path : Route.ofPath? (Target.ofUri "/api/v1/series/s/entries").path
      = some (.entries ['s']) := by decide +kernel
  have name : Text.ofUtf8? (percentDecode ['s']) = some "s" := by decide +kernel
  obtain ⟨first, isFirst⟩ :
      ∃ first, unluckyService.handle (sending compositeRunText) = first := ⟨_, rfl⟩
  obtain ⟨second, isSecond⟩ : ∃ second, first.1.handle (sending ['?']) = second := ⟨_, rfl⟩
  obtain ⟨third, isThird⟩ :
      ∃ third, second.1.handle (sending compositeRunText) = third := ⟨_, rfl⟩
  obtain ⟨failed, refused, accepted⟩ :
      first.2.status = 500 ∧ second.2.status = 400 ∧ third.2.status = 201 := by
    rw [← isThird, ← isSecond, ← isFirst]
    decide +kernel
  obtain ⟨reached, _, sent, _⟩ := effects_follow_status begun (sending compositeRunText)
  rw [isFirst] at reached sent
  obtain ⟨reached', spares, _, _⟩ := effects_follow_status reached (sending ['?'])
  rw [isSecond] at reached' spares
  obtain ⟨_, _, sent', _⟩ := effects_follow_status reached' (sending compositeRunText)
  rw [isThird] at sent'
  obtain ⟨e, p, stores, _, stats, dirty, _, health⟩ :=
    (sent _ _ ⟨path, rfl, name⟩).2.2.2 (by rw [failed])
  obtain ⟨f, q, stores', _⟩ := (sent' _ _ ⟨path, rfl, name⟩).2.2.1 accepted
  obtain ⟨es, once, listed⟩ := stores'.lists
  refine ⟨first, second, third, isFirst, isSecond, isThird,
    ⟨failed, e, p, stores, stats, dirty, ?_⟩, ⟨refused, ?_⟩, accepted, f, q, stores', es, once, ?_⟩
  · exact health (asking "/health") "" rfl ⟨by decide +kernel, rfl, by decide +kernel⟩
  · exact spares (.inr (by rw [refused]; decide))
  · exact listed (asking "/api/v1/series/s") ['s'] rfl ⟨by decide +kernel, rfl, name⟩

end Service

end Http

end BenchLedger
