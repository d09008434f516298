import ApiCatalog.Cluster.Server
import Mathlib.Data.List.Count
import Mathlib.Data.List.Forall2
import Mathlib.Data.List.TakeWhile

/-!
# The questions that make a snapshot

What a server answers decides what it is asked next: the versions that it lists are asked for one by
one. `Question.plan` is the whole row of questions for a server, and `Exchange.Follows` says that an
exchange asks the questions of a plan in turn, up to the first that is not answered. Exchanges that
follow plans one after the other follow the plans together (`Exchange.Follows.bind`), so the
exchange for a snapshot follows the plan for the server (`Snapshot.follows_fetch`).
`Snapshot.fetch_asks_plan` says what this means for the requests that are sent and for what comes of
them. A request keeps what stands in front of a number sign; where no listed version has one, that
is all of it (`Snapshot.fetch_asks_unsigned_plan`).
-/

namespace ApiCatalog

/-- What can be asked of a server on the way to a snapshot. -/
inductive Question where
  /-- The versions of the core group. -/
  | coreVersions
  /-- The announcement of a version of the core group. -/
  | coreResources (version : String)
  /-- The versions of the other groups. -/
  | groups
  /-- The announcement of a version of another group. -/
  | groupResources (groupVersion : String)
  /-- The OpenAPI document. -/
  | document
deriving DecidableEq

namespace Question

/-- The text for the path of the request. -/
def path : Question → String
  | .coreVersions => "/api"
  | .coreResources version => "/api/" ++ version
  | .groups => "/apis"
  | .groupResources groupVersion => "/apis/" ++ groupVersion
  | .document => "/openapi/v2"

/-- The form that the request asks for. -/
def accept : Question → Option String
  | .document => some "application/json"
  | _ => none

/-- The failure of the question. -/
def error : Question → FetchError
  | .coreVersions => .coreVersions
  | .coreResources version => .coreResources version
  | .groups => .groups
  | .groupResources groupVersion => .groupResources groupVersion
  | .document => .document

/-- What is said when the question fails. -/
def complaint : Question → String
  | .coreVersions => "Failed to list core API versions"
  | .coreResources version => "Failed to list core API resources for " ++ version
  | .groups => "Failed to list API groups"
  | .groupResources groupVersion => "Failed to list API resources for " ++ groupVersion
  | .document => "Failed to fetch /openapi/v2"

/-- The request, unless the text for its path makes none. -/
def request? (q : Question) : Option Request :=
  (Exchange.requestPath? q.path).map fun path => ⟨path, q.accept⟩

variable {α : Type} (server : Server)

/-- The text that the server answers, unless the request cannot be sent or has no success. -/
def answer? (q : Question) : Option String := do
  let response ← server (← q.request?)
  if response.status < 400 then some response.body else none

/-- The record that the server answers. -/
def record? (decode : Written → Option α) (q : Question) : Option α := do
  decode (← Written.read (← q.answer? server))

/-- The announcement that the server answers. -/
def announcement? (q : Question) : Option Announcement := q.record? server Announcement.decode

/-- The question has an answer of the kind that is asked for. -/
def isAnswered : Question → Bool
  | .coreVersions => (record? server Listing.decodeVersions .coreVersions).isSome
  | .groups => (record? server Listing.decodeGroups .groups).isSome
  | .coreResources version => (announcement? server (.coreResources version)).isSome
  | .groupResources groupVersion => (announcement? server (.groupResources groupVersion)).isSome
  | .document => (answer? server .document).isSome

/-- The versions of the core group that the server lists, if it does. -/
def listedVersions : List String :=
  (record? server Listing.decodeVersions .coreVersions).getD []

/-- The versions of the other groups that the server lists, if it does. -/
def listedGroupVersions : List String :=
  (record? server Listing.decodeGroups .groups).getD []

/-- The questions for announcements. -/
def announcing : List Question :=
  (listedVersions server).map .coreResources ++ (listedGroupVersions server).map .groupResources

/-- All questions for a snapshot, in order. -/
def plan : List Question :=
  .coreVersions :: ((listedVersions server).map .coreResources ++
    .groups :: ((listedGroupVersions server).map .groupResources ++ [.document]))

/-- The failure of a question says what is said when it fails. -/
theorem message_error (q : Question) : q.error.message = q.complaint := by cases q <;> rfl

/-- The failure of a question tells the path of its request. -/
theorem path_error (q : Question) : q.error.path = q.path := by cases q <;> rfl

/-- The failure of a question tells the form that its request asks for. -/
theorem accept_error (q : Question) : q.error.accept = q.accept := by cases q <;> rfl

/-- The answer to the request that failed is the answer to the question that failed. -/
theorem response?_error (q : Question) :
    q.error.response? server = q.request?.bind server := by
  unfold FetchError.response? request?
  rw [path_error, accept_error]
  cases Exchange.requestPath? q.path <;> rfl

end Question

open Question

/-! ## Exchanges that follow a plan -/

namespace Exchange

variable {α β : Type} {server : Server} {questions : List Question} {q : Question}

/-- The exchange asks the questions in turn. If all are answered, its result is good; otherwise the
first one that is not answered is the last one asked, and its failure is the result. -/
structure Follows (server : Server) (questions : List Question)
    (Good : Except FetchError α → Prop) (exchange : Exchange α) : Prop where
  whole : (∀ q ∈ questions, q.isAnswered server = true) →
    exchange.requests = questions.filterMap request? ∧ Good exchange.result
  cut : ∀ before q after, questions = before ++ q :: after →
    (∀ p ∈ before, p.isAnswered server = true) → q.isAnswered server = false →
      exchange.requests = (before ++ [q]).filterMap request? ∧
        exchange.result = .error q.error

/-- The exchange comes to a value with a property. -/
def Yields (P : α → Prop) (result : Except FetchError α) : Prop :=
  ∃ value, result = .ok value ∧ P value

/-- Where nothing is asked, no question is followed. -/
theorem follows_pure {P : α → Prop} {value : α} (h : P value) :
    Follows server [] (Yields P) (Pure.pure value) := by
  refine ⟨fun _ => ⟨rfl, value, rfl, h⟩, fun before q after hsplit => ?_⟩
  exact absurd hsplit (List.append_ne_nil_of_right_ne_nil before (List.cons_ne_nil q after)).symm

/-- Exchanges follow plans one after the other. -/
theorem Follows.bind {P : α → Prop} {Good : Except FetchError β → Prop} {exchange : Exchange α}
    {next : α → Exchange β} (hfirst : Follows server questions (Yields P) exchange)
    (others : List Question)
    (hnext : ∀ value, P value → Follows server others Good (next value)) :
    Follows server (questions ++ others) Good (exchange >>= next) := by
  have hok : ∀ value, exchange.result = .ok value →
      exchange >>= next = ⟨exchange.requests ++ (next value).requests, (next value).result⟩ := by
    intro value hvalue
    show exchange.bind next = _
    rw [Exchange.bind, hvalue]
  constructor
  · intro hall
    obtain ⟨hquestions, hothers⟩ := List.forall_mem_append.1 hall
    obtain ⟨hrequests, value, hvalue, hP⟩ := hfirst.whole hquestions
    obtain ⟨hlater, hgood⟩ := (hnext value hP).whole hothers
    rw [hok value hvalue, hrequests, hlater, List.filterMap_append]
    exact ⟨rfl, hgood⟩
  · intro before q after hsplit hbefore hq
    -- The first question without an answer belongs to the first plan or to the second one.
    rcases List.append_eq_append_iff.1 hsplit with ⟨middle, rfl, hothers⟩ | ⟨middle, rfl, hrest⟩
    · obtain ⟨hquestions, hmiddle⟩ := List.forall_mem_append.1 hbefore
      obtain ⟨hrequests, value, hvalue, hP⟩ := hfirst.whole hquestions
      obtain ⟨hlater, herror⟩ := (hnext value hP).cut middle q after hothers hmiddle hq
      rw [hok value hvalue, hrequests, hlater, List.append_assoc, ← List.filterMap_append]
      exact ⟨rfl, herror⟩
    · cases middle with
      | nil =>
          rw [List.append_nil] at hfirst
          obtain ⟨hrequests, value, hvalue, hP⟩ := hfirst.whole hbefore
          obtain ⟨hlater, herror⟩ := (hnext value hP).cut [] q after hrest.symm nofun hq
          rw [hok value hvalue, hrequests, hlater, ← List.filterMap_append]
          exact ⟨rfl, herror⟩
      | cons first rest =>
          obtain ⟨rfl, -⟩ := List.cons.inj hrest
          obtain ⟨hrequests, herror⟩ := hfirst.cut before q rest rfl hbefore hq
          have hfailed : exchange >>= next = ⟨exchange.requests, .error q.error⟩ := by
            show exchange.bind next = _
            rw [Exchange.bind, herror]
          rw [hfailed, hrequests]
          exact ⟨rfl, rfl⟩

/-- What comes of an exchange may be changed afterwards. -/
theorem Follows.map {Good : Except FetchError α → Prop} {Better : Except FetchError β → Prop}
    {exchange : Exchange α} {f : α → β} (h : Follows server questions Good exchange)
    (hgood : ∀ result, Good result → Better (result.map f)) :
    Follows server questions Better (exchange >>= fun value => Pure.pure (f value)) := by
  have hmap : exchange >>= (fun value => Pure.pure (f value)) =
      ⟨exchange.requests, exchange.result.map f⟩ := by
    show exchange.bind _ = _
    rw [Exchange.bind]
    cases exchange.result with
    | error error => rfl
    | ok value =>
        show Exchange.mk (exchange.requests ++ []) _ = _
        rw [List.append_nil]
        rfl
  rw [hmap]
  refine ⟨fun hall => ?_, fun before q after hsplit hbefore hq => ?_⟩
  · exact ⟨(h.whole hall).1, hgood _ (h.whole hall).2⟩
  · obtain ⟨hrequests, herror⟩ := h.cut before q after hsplit hbefore hq
    exact ⟨hrequests, by rw [herror]; rfl⟩

/-- One question is followed if what is asked for is what answers it. -/
theorem follows_single {Good : Except FetchError α → Prop} {exchange : Exchange α}
    (hrequests : exchange.requests = q.request?.toList)
    (hgood : q.isAnswered server = true → Good exchange.result)
    (hfailed : q.isAnswered server = false → exchange.result = .error q.error) :
    Follows server [q] Good exchange := by
  have hlist : [q].filterMap request? = q.request?.toList := by
    cases hrequest : q.request? <;> simp [hrequest]
  constructor
  · exact fun hall => ⟨hrequests.trans hlist.symm, hgood (hall q List.mem_cons_self)⟩
  · intro before p after hsplit hbefore hp
    cases before with
    | nil =>
        obtain ⟨rfl, -⟩ := List.cons.inj hsplit
        exact ⟨hrequests.trans hlist.symm, hfailed hp⟩
    | cons first rest =>
        exact absurd (List.cons.inj hsplit).2
          (List.append_ne_nil_of_right_ne_nil rest (List.cons_ne_nil p after)).symm

/-- The value, or the failure if there is none. -/
def orError (error : FetchError) : Option α → Except FetchError α
  | some value => .ok value
  | none => .error error

/-- Reading what an exchange yields sends nothing more. -/
theorem bind_read {requests : List Request} {result : Except FetchError α} {next : α → Exchange β}
    (read : α → Except FetchError β) (hnext : ∀ value, next value = ⟨[], read value⟩) :
    Exchange.bind ⟨requests, result⟩ next = ⟨requests, result.bind read⟩ := by
  rw [Exchange.bind]
  cases result with
  | error error => rfl
  | ok value =>
      dsimp only
      rw [hnext, List.append_nil]
      rfl

/-- A request that is asked for is sent if it can be, and it yields the answer. -/
theorem ask_eq (server : Server) (q : Question) :
    ask server q.path q.accept q.error =
      ⟨q.request?.toList, orError q.error (q.answer? server)⟩ := by
  unfold ask answer? request?
  cases requestPath? q.path with
  | none => rfl
  | some path =>
      simp only [Option.map_some, Option.bind_eq_bind, Option.bind_some, Option.toList_some]
      cases server ⟨path, q.accept⟩ with
      | none => rfl
      | some response =>
          by_cases hstatus : response.status < 400 <;> simp [hstatus, orError]

/-- A question for a record is followed. -/
theorem follows_askFor {decode : Written → Option α} (hplain : q.accept = none)
    (hanswered : q.isAnswered server = (q.record? server decode).isSome) :
    Follows server [q] (Yields fun value => q.record? server decode = some value)
      (askFor decode server q.path q.error) := by
  have hask := ask_eq server q
  rw [hplain] at hask
  have heq : askFor decode server q.path q.error =
      ⟨q.request?.toList, orError q.error (q.record? server decode)⟩ := by
    unfold askFor
    rw [hask]
    refine (bind_read (fun body => orError q.error ((Written.read body).bind decode))
      fun body => ?_).trans ?_
    · cases (Written.read body).bind decode <;> rfl
    · rw [record?]
      cases q.answer? server <;> rfl
  rw [heq]
  refine follows_single rfl (fun h => ?_) (fun h => ?_)
  · obtain ⟨value, hvalue⟩ := Option.isSome_iff_exists.1 (hanswered.symm.trans h)
    rw [hvalue]
    exact ⟨value, rfl, rfl⟩
  · have hnone : q.record? server decode = none :=
      Option.isSome_eq_false_iff.1 (hanswered.symm.trans h) |> Option.isNone_iff_eq_none.1
    rw [hnone]
    rfl

/-- Questions in turn are followed in turn. -/
theorem follows_inTurn {R : Question → α → Prop} {next : Question → Exchange α}
    (h : ∀ q ∈ questions, Follows server [q] (Yields (R q)) (next q)) :
    Follows server questions (Yields (List.Forall₂ R questions)) (inTurn (questions.map next)) := by
  induction questions with
  | nil => exact follows_pure .nil
  | cons q rest ih =>
      obtain ⟨hfirst, hrest⟩ := List.forall_mem_cons.1 h
      refine hfirst.bind rest fun value hvalue => (ih hrest).map ?_
      rintro _ ⟨values, rfl, hvalues⟩
      exact ⟨value :: values, rfl, .cons hvalue hvalues⟩

end Exchange

open Exchange (Follows Yields follows_askFor follows_inTurn)

variable {server : Server}

/-! ## The exchange for a snapshot -/

/-- The announcements are the answers to the questions. -/
def Answers (server : Server) (questions : List Question) (announcements : List Announcement) :
    Prop :=
  List.Forall₂ (fun q a => announcement? server q = some a) questions announcements

/-- Announcements of versions are asked for in turn. -/
theorem follows_announcements (question : String → Question) (versions : List String)
    (hplain : ∀ version, (question version).accept = none)
    (hanswered : ∀ version, (question version).isAnswered server =
      (announcement? server (question version)).isSome) :
    Follows server (versions.map question) (Yields (Answers server (versions.map question)))
      (Exchange.inTurn (versions.map fun version =>
        Exchange.askFor Announcement.decode server (question version).path
          (question version).error)) := by
  have hturn : Follows server (versions.map question)
      (Yields (Answers server (versions.map question)))
      (Exchange.inTurn ((versions.map question).map fun q =>
        Exchange.askFor Announcement.decode server q.path q.error)) := by
    refine follows_inTurn fun q hq => ?_
    obtain ⟨version, -, rfl⟩ := List.mem_map.1 hq
    exact follows_askFor (hplain version) (hanswered version)
  rwa [List.map_map] at hturn

/-- The exchange for announcements asks for the versions and then for each of them. -/
theorem Announcement.follows_fetch (server : Server) :
    Follows server
      (.coreVersions :: ((listedVersions server).map .coreResources ++
        .groups :: (listedGroupVersions server).map .groupResources))
      (Yields (Answers server (announcing server))) (Announcement.fetch server) := by
  have hversions : Follows server [.coreVersions] _
      (Exchange.askFor Listing.decodeVersions server "/api" .coreVersions) := follows_askFor rfl rfl
  have hgroups : Follows server [.groups] _
      (Exchange.askFor Listing.decodeGroups server "/apis" .groups) := follows_askFor rfl rfl
  refine hversions.bind (_ ++ .groups :: _) fun versions hlisted => ?_
  obtain rfl : listedVersions server = versions := by rw [listedVersions, hlisted, Option.getD_some]
  refine (follows_announcements .coreResources _ (fun _ => rfl) (fun _ => rfl)).bind
    (.groups :: _) fun core hcore => ?_
  refine hgroups.bind (List.map _ _) fun groupVersions hlistedGroups => ?_
  obtain rfl : listedGroupVersions server = groupVersions := by
    rw [listedGroupVersions, hlistedGroups, Option.getD_some]
  refine (follows_announcements .groupResources _ (fun _ => rfl) (fun _ => rfl)).map ?_
  rintro _ ⟨others, rfl, hothers⟩
  exact ⟨core ++ others, rfl, List.rel_append hcore hothers⟩

/-- The exchange for the document asks for it and reads it. -/
theorem Json.follows_fetchDocument (server : Server) :
    Follows server [.document]
      (fun result => ∃ body, answer? server .document = some body ∧
        result = Exchange.orError .malformedDocument (Json.read body))
      (Json.fetchDocument server) := by
  have hask := Exchange.ask_eq server .document
  have heq : Json.fetchDocument server =
      ⟨(request? .document).toList, (Exchange.orError .document (answer? server .document)).bind
        fun body => Exchange.orError .malformedDocument (Json.read body)⟩ := by
    unfold Json.fetchDocument
    refine Eq.trans (congrArg (Exchange.bind · _) hask) (Exchange.bind_read _ fun body => ?_)
    cases Json.read body <;> rfl
  rw [heq]
  refine Exchange.follows_single rfl (fun h => ?_) (fun h => ?_)
  · obtain ⟨body, hbody⟩ := Option.isSome_iff_exists.1 h
    rw [hbody]
    exact ⟨body, rfl, rfl⟩
  · have hnone : answer? server .document = none := Option.isSome_eq_false_iff.1 h |>
      Option.isNone_iff_eq_none.1
    rw [hnone]
    rfl

/-- The exchange for a snapshot asks the questions of the plan. -/
theorem Snapshot.follows_fetch (server : Server) :
    Follows server (plan server)
      (fun result => ∃ announcements body, Answers server (announcing server) announcements ∧
        answer? server .document = some body ∧
        result = Exchange.orError .malformedDocument
          ((Json.read body).map fun openapi => ⟨announcements, openapi⟩))
      (Snapshot.fetch server) := by
  have hplan : plan server =
      (.coreVersions :: ((listedVersions server).map .coreResources ++
        .groups :: (listedGroupVersions server).map .groupResources)) ++ [.document] := by
    simp [plan]
  rw [hplan]
  refine (Announcement.follows_fetch server).bind [.document] fun announcements hanswers => ?_
  refine (Json.follows_fetchDocument server).map ?_
  rintro _ ⟨body, hbody, rfl⟩
  refine ⟨announcements, body, hanswers, hbody, ?_⟩
  cases Json.read body <;> rfl

/-! ## What is sent twice -/

namespace Question

/-- What a request keeps of a text: all in front of a number sign. It is the text itself if there is
none. -/
def stem (text : String) : String := String.ofList (text.toList.takeWhile (· ≠ '#'))

/-- A request keeps all of a text without a number sign. -/
theorem stem_eq_self {text : String} (h : '#' ∉ text.toList) : stem text = text := by
  rw [stem, List.takeWhile_eq_self_iff.2, String.ofList_toList]
  exact fun c hc => decide_eq_true fun hsign => h (hsign ▸ hc)

/-- What is read of a query stands in front of a number sign. -/
theorem scanQuery_eq {cs query : List Char} (h : Exchange.scanQuery cs = some query) :
    query = cs.takeWhile (· ≠ '#') := by
  induction cs generalizing query with
  | nil =>
      cases h
      rfl
  | cons c rest ih =>
      by_cases hsign : c = '#'
      · subst hsign
        cases h
        rfl
      · rw [Exchange.scanQuery] at h
        · obtain ⟨-, h⟩ := Option.ite_none_left_eq_some.1 h
          obtain ⟨others, hothers, rfl⟩ := Option.map_eq_some_iff.1 h
          rw [List.takeWhile_cons_of_pos (by simpa using hsign), ih hothers]
        · exact hsign

/-- What is read of a path, with its query, stands in front of a number sign. -/
theorem scanPath_eq {cs path : List Char} (h : Exchange.scanPath cs = some path) :
    path = cs.takeWhile (· ≠ '#') := by
  induction cs generalizing path with
  | nil =>
      cases h
      rfl
  | cons c rest ih =>
      by_cases hsign : c = '#'
      · subst hsign
        cases h
        rfl
      · rw [List.takeWhile_cons_of_pos (by simpa using hsign)]
        by_cases hmark : c = '?'
        · subst hmark
          obtain ⟨query, hquery, rfl⟩ := Option.map_eq_some_iff.1 h
          rw [scanQuery_eq hquery]
        · rw [Exchange.scanPath] at h
          · obtain ⟨-, h⟩ := Option.ite_none_left_eq_some.1 h
            obtain ⟨others, hothers, rfl⟩ := Option.map_eq_some_iff.1 h
            rw [ih hothers]
          · exact hsign
          · exact hmark

/-- A question is sent to its path, in front of a number sign. -/
theorem eq_of_request? {q : Question} {request : Request} (h : q.request? = some request) :
    request = ⟨stem q.path, q.accept⟩ := by
  obtain ⟨path, hpath, rfl⟩ := Option.map_eq_some_iff.1 h
  unfold Exchange.requestPath? at hpath
  obtain ⟨-, hpath⟩ := Option.ite_none_right_eq_some.1 hpath
  obtain ⟨cs, hcs, rfl⟩ := Option.map_eq_some_iff.1 hpath
  rw [scanPath_eq hcs, stem]

/-- The question of which a request keeps all. -/
def stemmed : Question → Question
  | .coreResources version => .coreResources (stem version)
  | .groupResources groupVersion => .groupResources (stem groupVersion)
  | q => q

/-- A request keeps all of a beginning without a number sign. -/
theorem stem_append {before : String} (h : '#' ∉ before.toList) (text : String) :
    stem (before ++ text) = before ++ stem text := by
  have hbefore : ∀ c ∈ before.toList, decide (c ≠ '#') = true := fun c hc =>
    decide_eq_true fun hsign => h (hsign ▸ hc)
  rw [String.ext_iff, stem, String.toList_append, String.toList_ofList, String.toList_append, stem,
    String.toList_ofList, List.takeWhile_append_of_pos hbefore]

/-- The path of the question of which all is kept is what is kept of the path. -/
theorem path_stemmed (q : Question) : q.stemmed.path = stem q.path := by
  cases q with
  | coreVersions | groups | document => decide
  | coreResources version => exact (stem_append (by decide) version).symm
  | groupResources groupVersion => exact (stem_append (by decide) groupVersion).symm

/-- The characters of the path. -/
def pathChars : Question → List Char
  | .coreVersions => ['/', 'a', 'p', 'i']
  | .coreResources version => ['/', 'a', 'p', 'i', '/'] ++ version.toList
  | .groups => ['/', 'a', 'p', 'i', 's']
  | .groupResources groupVersion => ['/', 'a', 'p', 'i', 's', '/'] ++ groupVersion.toList
  | .document => ['/', 'o', 'p', 'e', 'n', 'a', 'p', 'i', '/', 'v', '2']

/-- The characters are those of the path. -/
theorem toList_path (q : Question) : q.path.toList = q.pathChars := by
  cases q with
  | coreVersions | groups | document => decide
  | coreResources version => exact String.toList_append
  | groupResources groupVersion => exact String.toList_append

/-- Questions are told apart by their paths. -/
theorem path_injective : Function.Injective path := by
  intro q p h
  have hchars : q.pathChars = p.pathChars := by rw [← toList_path, ← toList_path, h]
  cases q <;> cases p <;> simp [pathChars, String.toList_inj] at hchars ⊢ <;> exact hchars

/-- Questions with one request are the same in front of number signs. -/
theorem stemmed_eq_of_request? {q p : Question} {request : Request}
    (hq : q.request? = some request) (hp : p.request? = some request) : p.stemmed = q.stemmed := by
  refine path_injective ?_
  rw [path_stemmed, path_stemmed]
  have hsame := (eq_of_request? hp).symm.trans (eq_of_request? hq)
  exact (Request.mk.inj hsame).1

/-- A request is planned at most as often as questions that are the same in front of number
signs. -/
theorem count_requests_le {q : Question} {request : Request} (hq : q.request? = some request)
    (questions : List Question) :
    (questions.filterMap request?).count request ≤ (questions.map stemmed).count q.stemmed := by
  rw [List.count_filterMap, List.count, List.countP_map]
  refine List.countP_mono_left fun p _ hp => ?_
  rw [Function.comp_apply, beq_iff_eq]
  exact stemmed_eq_of_request? hq (beq_iff_eq.1 hp)

/-- What is kept of a plan is the plan for what is kept of the listed versions. -/
theorem map_stemmed_plan (server : Server) :
    (plan server).map stemmed =
      .coreVersions :: (((listedVersions server).map stem).map .coreResources ++
        .groups :: (((listedGroupVersions server).map stem).map .groupResources ++
          [.document])) := by
  simp only [plan, List.map_cons, List.map_append, List.map_map, List.map_nil]
  rfl

/-- Questions for versions of the core group are told apart by the versions. -/
theorem coreResources_injective : Function.Injective coreResources :=
  fun _ _ h => coreResources.inj h

/-- Questions for versions of other groups are told apart by the versions. -/
theorem groupResources_injective : Function.Injective groupResources :=
  fun _ _ h => groupResources.inj h

/-- In front of number signs a question is planned as often as its version is listed, and once if it
is for no version. -/
theorem count_stemmed_plan (server : Server) (q : Question) :
    ((plan server).map stemmed).count q =
      match q with
      | .coreResources version => ((listedVersions server).map stem).count version
      | .groupResources groupVersion => ((listedGroupVersions server).map stem).count groupVersion
      | _ => 1 := by
  have hnone : ∀ (question : String → Question) (versions : List String) (p : Question),
      (∀ version, p ≠ question version) → (versions.map question).count p = 0 := by
    intro question versions p hp
    rw [List.count_eq_zero, List.mem_map]
    rintro ⟨version, -, rfl⟩
    exact hp version rfl
  rw [map_stemmed_plan, List.count_cons, List.count_append, List.count_cons, List.count_append]
  cases q with
  | coreVersions | groups | document =>
      rw [hnone _ _ _ (fun _ => by simp), hnone _ _ _ (fun _ => by simp)]
      rfl
  | coreResources version =>
      rw [List.count_map_of_injective _ _ coreResources_injective, hnone _ _ _ (fun _ => by simp)]
      exact Nat.add_zero _
  | groupResources groupVersion =>
      rw [hnone _ _ _ (fun _ => by simp), List.count_map_of_injective _ _ groupResources_injective]
      exact (Nat.zero_add _).trans (Nat.add_zero _)

/-- The questions that are asked: those that are answered in front of the first one that is not, and
this one. -/
def asked (server : Server) : List Question :=
  (plan server).takeWhile (·.isAnswered server) ++
    ((plan server).find? fun q => !q.isAnswered server).toList

/-- If all questions are answered, all are asked. -/
theorem asked_of_all (h : ∀ q ∈ plan server, q.isAnswered server = true) :
    asked server = plan server := by
  have hnone : (plan server).find? (fun q => !q.isAnswered server) = none := by
    rw [List.find?_eq_none]
    intro q hq
    rw [h q hq]
    exact Bool.false_ne_true
  rw [asked, hnone, List.takeWhile_eq_self_iff.2 h]
  exact List.append_nil _

/-- If a question is not answered, the plan has a first one. -/
theorem exists_split_of_find? {q : Question}
    (h : (plan server).find? (fun q => !q.isAnswered server) = some q) :
    ∃ before after, plan server = before ++ q :: after ∧
      (∀ p ∈ before, p.isAnswered server = true) ∧ q.isAnswered server = false ∧
      asked server = before ++ [q] := by
  obtain ⟨hq, before, after, hsplit, hbefore⟩ := List.find?_eq_some_iff_append.1 h
  rw [Bool.not_eq_true'] at hq
  have hall : ∀ p ∈ before, p.isAnswered server = true := fun p hp => by
    simpa using hbefore p hp
  refine ⟨before, after, hsplit, hall, hq, ?_⟩
  rw [asked, h, hsplit, List.takeWhile_append_of_pos hall,
    List.takeWhile_cons_of_neg (by rw [hq]; exact Bool.false_ne_true), List.append_nil]
  rfl

/-- The questions that are asked are the first ones of the plan. -/
theorem asked_starts_plan (server : Server) : asked server <+: plan server := by
  cases h : (plan server).find? fun q => !q.isAnswered server with
  | none =>
      rw [asked, h]
      exact (List.append_nil _).symm ▸ List.takeWhile_prefix _
  | some q =>
      obtain ⟨before, after, hsplit, -, -, hasked⟩ := exists_split_of_find? h
      exact ⟨after, by rw [hasked, hsplit, List.append_assoc]; rfl⟩

/-- Either all questions are answered, or there is a first one that is not. -/
theorem answered_cases (server : Server) :
    (∀ q ∈ plan server, q.isAnswered server = true) ∨
      ∃ q, (plan server).find? (fun q => !q.isAnswered server) = some q := by
  cases h : (plan server).find? fun q => !q.isAnswered server with
  | none => exact .inl fun q hq => by simpa using List.find?_eq_none.1 h q hq
  | some q => exact .inr ⟨q, rfl⟩

/-- The requests that are sent are those of the questions that are asked. -/
theorem requests_fetch (server : Server) :
    (Snapshot.fetch server).requests = (asked server).filterMap request? := by
  have hfollows := Snapshot.follows_fetch server
  rcases answered_cases server with hall | ⟨q, hfirst⟩
  · rw [(hfollows.whole hall).1, asked_of_all hall]
  · obtain ⟨before, after, hsplit, hbefore, hq, hasked⟩ := exists_split_of_find? hfirst
    rw [(hfollows.cut before q after hsplit hbefore hq).1, hasked]

/-- A request that is sent belongs to a question of the plan, and it is sent no more often than this
question is planned, number signs aside. -/
theorem count_requests_fetch {request : Request}
    (h : request ∈ (Snapshot.fetch server).requests) :
    ∃ q ∈ plan server, q.request? = some request ∧
      (Snapshot.fetch server).requests.count request ≤
        ((plan server).map stemmed).count q.stemmed := by
  rw [requests_fetch] at h ⊢
  obtain ⟨q, hq, hrequest⟩ := List.mem_filterMap.1 h
  have hstart := asked_starts_plan server
  refine ⟨q, hstart.subset hq, hrequest, (count_requests_le hrequest _).trans ?_⟩
  exact (hstart.sublist.map stemmed).count_le q.stemmed

/-- A request is sent once at most, or as often as versions are listed that are the same in front of
number signs. -/
theorem count_requests_fetch_le (server : Server) (request : Request) :
    (Snapshot.fetch server).requests.count request ≤ 1 ∨
    (∃ version ∈ listedVersions server, request? (.coreResources version) = some request ∧
      (Snapshot.fetch server).requests.count request ≤
        ((listedVersions server).map stem).count (stem version)) ∨
    ∃ groupVersion ∈ listedGroupVersions server,
      request? (.groupResources groupVersion) = some request ∧
        (Snapshot.fetch server).requests.count request ≤
          ((listedGroupVersions server).map stem).count (stem groupVersion) := by
  by_cases hsent : request ∈ (Snapshot.fetch server).requests
  · obtain ⟨q, hq, hrequest, hcount⟩ := count_requests_fetch hsent
    rw [count_stemmed_plan] at hcount
    cases q with
    | coreVersions | groups | document => exact .inl hcount
    | coreResources version =>
        refine .inr (.inl ⟨version, ?_, hrequest, hcount⟩)
        simpa [plan] using hq
    | groupResources groupVersion =>
        refine .inr (.inr ⟨groupVersion, ?_, hrequest, hcount⟩)
        simpa [plan] using hq
  · exact .inl ((List.count_eq_zero.2 hsent).trans_le (Nat.zero_le 1))

/-- What comes of asking for a snapshot: a snapshot, the failure of the first question that is not
answered, or an answer that is no document. -/
theorem fetch_cases (server : Server) :
    (∃ snapshot, (Snapshot.fetch server).result = .ok snapshot ∧
      (∀ q ∈ plan server, q.isAnswered server = true) ∧
      Answers server (announcing server) snapshot.announcements ∧
      (answer? server .document).bind Json.read = some snapshot.openapi) ∨
    (∃ q, (Snapshot.fetch server).result = .error q.error ∧
      (plan server).find? (fun q => !q.isAnswered server) = some q) ∨
    (Snapshot.fetch server).result = .error .malformedDocument ∧
      (∀ q ∈ plan server, q.isAnswered server = true) ∧
      (answer? server .document).bind Json.read = none := by
  have hfollows := Snapshot.follows_fetch server
  rcases answered_cases server with hanswered | ⟨q, hfirst⟩
  · obtain ⟨announcements, body, hanswers, hbody, hresult⟩ := (hfollows.whole hanswered).2
    rw [hbody, Option.bind_some]
    cases hread : Json.read body with
    | none =>
        rw [hread] at hresult
        exact .inr (.inr ⟨hresult, hanswered, rfl⟩)
    | some openapi =>
        rw [hread] at hresult
        exact .inl ⟨⟨announcements, openapi⟩, hresult, hanswered, hanswers, rfl⟩
  · obtain ⟨before, after, hsplit, hbefore, hq, -⟩ := exists_split_of_find? hfirst
    exact .inr (.inl ⟨q, (hfollows.cut before q after hsplit hbefore hq).2, hfirst⟩)

/-- Whatever fails, it is told together with what the server has answered to the question that
failed: the first one without an answer, or that for the document if this cannot be read. -/
theorem response?_of_fetch_eq_error {error : FetchError}
    (h : (Snapshot.fetch server).result = .error error) :
    ∃ q ∈ plan server, error.response? server = q.request?.bind server ∧
      ((plan server).find? (fun q => !q.isAnswered server) = some q ∨
        q = .document ∧ error = .malformedDocument) := by
  obtain ⟨snapshot, hresult, -⟩ | ⟨q, hresult, hfirst⟩ | ⟨hresult, -, -⟩ := fetch_cases server
  · rw [hresult] at h
    cases h
  · obtain rfl := Except.error.inj (hresult.symm.trans h)
    exact ⟨q, List.mem_of_find?_eq_some hfirst, response?_error server q, .inl hfirst⟩
  · obtain rfl := Except.error.inj (hresult.symm.trans h)
    exact ⟨.document, by simp [plan], response?_error server .document, .inr ⟨rfl, rfl⟩⟩

end Question

/-- Asking for a snapshot sends the requests of the plan in order, up to the first question that is
not answered; a question whose text makes no request is not sent. A request goes to the path of its
question, of which it keeps what is in front of a number sign, and it is sent once at most, or as
often as versions are listed that are the same up to there. There is a snapshot exactly if every
question is answered and the document can be read. Its announcements are the answers to the
questions for versions, in their order. Otherwise it is said which question is the first one without
an answer, or that the document cannot be read. -/
theorem Snapshot.fetch_asks_plan (server : Server) :
    (Snapshot.fetch server).requests = (asked server).filterMap request? ∧
    (∀ q request, request? q = some request → request = ⟨stem q.path, q.accept⟩) ∧
    (∀ text, '#' ∉ text.toList → stem text = text) ∧
    (∀ request,
      (Snapshot.fetch server).requests.count request ≤ 1 ∨
      (∃ version ∈ listedVersions server, request? (.coreResources version) = some request ∧
        (Snapshot.fetch server).requests.count request ≤
          ((listedVersions server).map stem).count (stem version)) ∨
      ∃ groupVersion ∈ listedGroupVersions server,
        request? (.groupResources groupVersion) = some request ∧
          (Snapshot.fetch server).requests.count request ≤
            ((listedGroupVersions server).map stem).count (stem groupVersion)) ∧
    ((∃ snapshot, (Snapshot.fetch server).result = .ok snapshot) ↔
      (∀ q ∈ plan server, q.isAnswered server = true) ∧
        ∃ openapi, (answer? server .document).bind Json.read = some openapi) ∧
    (∀ snapshot, (Snapshot.fetch server).result = .ok snapshot →
      Answers server (announcing server) snapshot.announcements ∧
        (answer? server .document).bind Json.read = some snapshot.openapi) ∧
    ∀ error, (Snapshot.fetch server).result = .error error →
      (∃ q, (plan server).find? (fun q => !q.isAnswered server) = some q ∧
        error.message = q.complaint) ∨
      (∀ q ∈ plan server, q.isAnswered server = true) ∧
        (answer? server .document).bind Json.read = none ∧
          error.message = "Failed to parse OpenAPI document" := by
  refine ⟨requests_fetch server, fun q request => eq_of_request?, fun text => stem_eq_self,
    count_requests_fetch_le server, ?_⟩
  obtain ⟨snapshot, hresult, hanswered, hanswers, hread⟩ | ⟨q, hresult, hfirst⟩ |
    ⟨hresult, hanswered, hread⟩ := fetch_cases server <;> rw [hresult]
  · refine ⟨iff_of_true ⟨snapshot, rfl⟩ ⟨hanswered, snapshot.openapi, hread⟩,
      fun other hother => ?_, nofun⟩
    cases hother
    exact ⟨hanswers, hread⟩
  · have hunanswered := List.find?_some hfirst
    have hmem := List.mem_of_find?_eq_some hfirst
    refine ⟨iff_of_false nofun fun h => ?_, nofun, fun error herror => ?_⟩
    · rw [h.1 q hmem] at hunanswered
      cases hunanswered
    · cases herror
      exact .inl ⟨q, hfirst, message_error q⟩
  · refine ⟨iff_of_false nofun fun h => ?_, nofun, fun error herror => ?_⟩
    · obtain ⟨-, openapi, hopenapi⟩ := h
      rw [hread] at hopenapi
      cases hopenapi
    · cases herror
      exact .inr ⟨hanswered, hread, rfl⟩

namespace Question

/-- No version that the server lists has a number sign. -/
def Unsigned (server : Server) : Prop :=
  ∀ text ∈ listedVersions server ++ listedGroupVersions server, '#' ∉ text.toList

/-- Requests keep all of the questions for versions without number signs. -/
theorem stemmed_of_unsigned (h : Unsigned server) {q : Question} (hq : q ∈ plan server) :
    q.stemmed = q := by
  obtain ⟨hversions, hgroups⟩ := List.forall_mem_append.1 h
  cases q with
  | coreVersions | groups | document => rfl
  | coreResources version =>
      have hlisted : version ∈ listedVersions server := by simpa [plan] using hq
      exact congrArg coreResources (stem_eq_self (hversions version hlisted))
  | groupResources groupVersion =>
      have hlisted : groupVersion ∈ listedGroupVersions server := by simpa [plan] using hq
      exact congrArg groupResources (stem_eq_self (hgroups groupVersion hlisted))

/-- Requests keep all of a plan without number signs. -/
theorem map_stemmed_of_unsigned (h : Unsigned server) :
    (plan server).map stemmed = plan server :=
  (List.map_congr_left fun _ hq => stemmed_of_unsigned h hq).trans (List.map_id _)

/-- The questions for versions without number signs are sent to their very paths. -/
theorem eq_of_request?_of_unsigned (h : Unsigned server) {q : Question} (hq : q ∈ plan server)
    {request : Request} (hrequest : q.request? = some request) :
    request = ⟨q.path, q.accept⟩ := by
  rw [eq_of_request? hrequest, ← path_stemmed, stemmed_of_unsigned h hq]

/-- Without number signs, a question is planned as often as its version is listed, and once if it is
for no version. -/
theorem count_plan (h : Unsigned server) (q : Question) :
    (plan server).count q =
      match q with
      | .coreResources version => (listedVersions server).count version
      | .groupResources groupVersion => (listedGroupVersions server).count groupVersion
      | _ => 1 := by
  have hlisted : ∀ {texts : List String}, (∀ text ∈ texts, '#' ∉ text.toList) →
      texts.map stem = texts := fun htexts =>
    (List.map_congr_left fun text htext => stem_eq_self (htexts text htext)).trans (List.map_id _)
  obtain ⟨hversions, hgroups⟩ := List.forall_mem_append.1 h
  have hcount := count_stemmed_plan server q
  rwa [map_stemmed_of_unsigned h, hlisted hversions, hlisted hgroups] at hcount

end Question

/-- If no listed version has a number sign, then the requests go to the very paths of the questions
that are asked. None is sent more often than its version is listed, or more than once if it is for
no version. -/
theorem Snapshot.fetch_asks_unsigned_plan (h : Unsigned server) :
    (Snapshot.fetch server).requests =
      ((asked server).filter fun q => q.request?.isSome).map (fun q => ⟨q.path, q.accept⟩) ∧
    ∀ q : Question, (Snapshot.fetch server).requests.count ⟨q.path, q.accept⟩ ≤
      match q with
      | .coreResources version => (listedVersions server).count version
      | .groupResources groupVersion => (listedGroupVersions server).count groupVersion
      | _ => 1 := by
  refine ⟨?_, fun q => ?_⟩
  · rw [requests_fetch, ← List.filterMap_eq_map, List.filterMap_filter]
    refine List.filterMap_congr fun q hq => ?_
    cases hrequest : q.request? with
    | none => rfl
    | some request =>
        have hplanned := (asked_starts_plan server).subset hq
        exact congrArg some (eq_of_request?_of_unsigned h hplanned hrequest)
  · rw [← count_plan h]
    by_cases hsent : (⟨q.path, q.accept⟩ : Request) ∈ (Snapshot.fetch server).requests
    · obtain ⟨p, hp, hrequest, hcount⟩ := count_requests_fetch hsent
      -- The question with this request is the given one, since their paths are the same.
      have hsame : q = p :=
        path_injective (Request.mk.inj (eq_of_request?_of_unsigned h hp hrequest)).1
      rwa [map_stemmed_of_unsigned h, stemmed_of_unsigned h hp, ← hsame] at hcount
    · exact (List.count_eq_zero.2 hsent).trans_le (Nat.zero_le _)

namespace BadVersion

/-- The text for a version of a group. -/
def versionText (groupVersion : String) : String :=
  "\x7b\"groupVersion\":\"" ++ groupVersion ++ "\"\x7d"

/-- The text for a group with these versions. -/
def groupsText (groupVersions : List String) : String :=
  "\x7b\"groups\":[\x7b\"versions\":[" ++ Text.join "," (groupVersions.map versionText) ++
    "]\x7d]\x7d"

/-- A server that lists `apps/v1` twice and then a version with a blank. -/
def listing : Server := .ofTable [
  ("/api", ⟨200, "\x7b\"versions\":[\"v1\"]\x7d"⟩),
  ("/api/v1", ⟨200, "\x7b\x7d"⟩),
  ("/apis", ⟨200, groupsText ["apps/v1", "apps/v1", "bad version", "late/v1"]⟩),
  ("/apis/apps/v1", ⟨200, "\x7b\x7d"⟩)]

/-- The plan for the server. -/
theorem plan_listing : plan listing =
    [.coreVersions, .coreResources "v1", .groups, .groupResources "apps/v1",
      .groupResources "apps/v1", .groupResources "bad version", .groupResources "late/v1",
      .document] := by
  decide +kernel

/-- The question for the version with a blank is the first one without an answer. -/
theorem find?_listing : (plan listing).find? (fun q => !q.isAnswered listing) =
    some (.groupResources "bad version") := by
  rw [plan_listing]
  decide +kernel

/-- This question is the last one that is asked. -/
theorem asked_listing : asked listing =
    [.coreVersions, .coreResources "v1", .groups, .groupResources "apps/v1",
      .groupResources "apps/v1", .groupResources "bad version"] := by
  rw [asked, find?_listing, plan_listing]
  decide +kernel

/-- The version with a blank is not asked for, and neither is anything after it. A version that is
listed twice is asked for twice. -/
theorem listing_ends_at_bad_version :
    (Snapshot.fetch listing).requests.map Request.path =
      ["/api", "/api/v1", "/apis", "/apis/apps/v1", "/apis/apps/v1"] ∧
    ∃ error, (Snapshot.fetch listing).result = .error error ∧
      error.message = "Failed to list API resources for bad version" := by
  obtain ⟨hrequests, -, -, -, hsuccess, -, hfailure⟩ := Snapshot.fetch_asks_plan listing
  have hmem := List.mem_of_find?_eq_some find?_listing
  have hunanswered := List.find?_some find?_listing
  rw [Bool.not_eq_true'] at hunanswered
  have hnot : ¬ ∀ q ∈ plan listing, q.isAnswered listing = true := fun hanswered =>
    Bool.false_ne_true (hunanswered.symm.trans (hanswered _ hmem))
  refine ⟨by rw [hrequests, asked_listing]; decide +kernel, ?_⟩
  cases hresult : (Snapshot.fetch listing).result with
  | ok snapshot => exact absurd (hsuccess.1 ⟨snapshot, hresult⟩).1 hnot
  | error error =>
      refine ⟨error, rfl, ?_⟩
      obtain ⟨q, hq, hmessage⟩ | ⟨hanswered, -⟩ := hfailure error hresult
      · cases find?_listing.symm.trans hq
        exact hmessage
      · exact absurd hanswered hnot

end BadVersion

end ApiCatalog
