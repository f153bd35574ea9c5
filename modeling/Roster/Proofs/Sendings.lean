import Roster.Proofs.Queries
import Roster.Proofs.RoundTrip
import Roster.Proofs.Transport
/-! # Operations over HTTP

Every operation has its place and its method. Its identifier stands escaped in the path, its page in
the query, and all else in the body. Sent like this it is the call of a client, and is answered with
what comes of that call. -/
namespace Roster

/-- The account that an operation names. -/
def Request.account? : Request → Option String
  | .update r => some r.id
  | .delete r => some r.id
  | .create _ | .list _ => none

namespace Http

namespace Uri

/-- A path ends at the first question mark. -/
theorem takeWhile_path {path : List Char} (hpath : ∀ c ∈ path, isPathChar c = true) (rest : List Char) :
    (path ++ rest).takeWhile (fun c => c != '?' && c != '#') =
      path ++ rest.takeWhile (fun c => c != '?' && c != '#') := by
  apply List.takeWhile_append_of_pos
  intro c hc
  have hchar := hpath c hc
  simp only [isPathChar, Bool.and_eq_true] at hchar
  rw [hchar.1.2, hchar.1.1.1.1.2]
  rfl

theorem splitTarget?_path {path : List Char} (hpath : ∀ c ∈ path, isPathChar c = true) :
    splitTarget? path = some (.ofList path, none) := by
  have hwhole := takeWhile_path hpath []
  rw [List.append_nil, List.takeWhile_nil, List.append_nil] at hwhole
  have hall : path.all isPathChar = true := List.all_eq_true.mpr hpath
  simp only [splitTarget?, hwhole, hall, Bool.not_true, Bool.false_eq_true, if_false, List.drop_length]

theorem splitTarget?_query {path query : List Char} (hpath : ∀ c ∈ path, isPathChar c = true)
    (hquery : ∀ c ∈ query, isQueryChar c = true) :
    splitTarget? (path ++ '?' :: query) = some (.ofList path, some (.ofList query)) := by
  have hbefore := takeWhile_path hpath ('?' :: query)
  rw [List.takeWhile_cons_of_neg (by decide), List.append_nil] at hbefore
  have hfragment : ∀ c ∈ query, (c != '#') = true := by
    intro c hc
    have hchar := hquery c hc
    simp only [isQueryChar, Bool.and_eq_true] at hchar
    exact hchar.1.1.2
  have hwhole : query.takeWhile (· != '#') = query := by
    have h := @List.takeWhile_append_of_pos Char (· != '#') query [] hfragment
    rwa [List.append_nil, List.takeWhile_nil, List.append_nil] at h
  have hall : path.all isPathChar = true := List.all_eq_true.mpr hpath
  have hall' : query.all isQueryChar = true := List.all_eq_true.mpr hquery
  simp only [splitTarget?, hbefore, hall, Bool.not_true, Bool.false_eq_true, if_false,
    List.drop_left, hwhole, hall', if_true]

/-- A target that begins with a slash is a path with an optional query. -/
theorem parse?_slash {s : String} {cs : List Char} (hlist : s.toList = '/' :: cs)
    (hlength : s.utf8ByteSize ≤ maxLength) {written : String} {query : Option String}
    (hsplit : splitTarget? ('/' :: cs) = some (written, query)) :
    parse? s = some { written, query } := by
  simp only [parse?, if_neg (Nat.not_lt_of_le hlength), hlist, hsplit]
  rfl

end Uri

/-- The path of an account. -/
def userPath (segment : List Char) : String := .ofList ("/user/".toList ++ segment)

theorem toList_userPath (segment : List Char) :
    (userPath segment).toList = '/' :: 'u' :: 's' :: 'e' :: 'r' :: '/' :: segment :=
  String.toList_ofList

theorem EscapesSegment.bounds {s : String} {cs : List Char} (h : EscapesSegment s cs) :
    ∀ c ∈ cs, Uri.isPathChar c = true ∧ c ≠ '/' := by
  refine Escapes.forall_mem (P := fun c => Uri.isPathChar c = true ∧ c ≠ '/') h (fun c hc => ?_)
    (by decide) (by decide)
  simp only [isSegmentChar, Bool.and_eq_true, bne_iff_ne] at hc
  exact ⟨hc.1.1.2, hc.2⟩

theorem EscapesSegment.ne_nil {s : String} {cs : List Char} (h : EscapesSegment s cs) (hs : s ≠ "") :
    cs ≠ [] := by
  rintro rfl
  have hempty : Text.encode s = [] := by
    unfold EscapesSegment at h
    generalize Text.encode s = bs at h
    cases h
    rfl
  have hback := Text.decode?_encode s
  rw [hempty] at hback
  have hnone : Text.decode? [] = some [] := by decide +kernel
  rw [hnone, Option.some.injEq] at hback
  exact hs (String.toList_inj.mp hback.symm)

theorem EscapesSegment.parse? {s : String} {cs : List Char} (h : EscapesSegment s cs)
    (hlength : (userPath cs).utf8ByteSize ≤ Uri.maxLength) :
    Uri.parse? (userPath cs) = some { written := userPath cs } := by
  have hpath : ∀ c ∈ "/user/".toList ++ cs, Uri.isPathChar c = true := by
    have hprefix : "/user/".toList.all Uri.isPathChar = true := by decide
    intro c hc
    rcases List.mem_append.mp hc with hc | hc
    · exact List.all_eq_true.mp hprefix c hc
    · exact (h.bounds c hc).1
  exact Uri.parse?_slash String.toList_ofList hlength (Uri.splitTarget?_path hpath)

theorem Route.ofPath?_userPath {segment : List Char} (hne : segment ≠ []) (hslash : '/' ∉ segment) :
    Route.ofPath? (userPath segment) = some (.user (.ofList segment)) := by
  have hlist := toList_userPath segment
  have hother (s : String) (hs : s.toList.take 6 ≠ "/user/".toList) : userPath segment ≠ s := by
    rintro rfl
    rw [hlist] at hs
    exact hs rfl
  have hsegment : ¬ (segment = [] ∨ segment.contains '/') := by
    rintro (h | h)
    · exact hne h
    · exact hslash (List.contains_iff_mem.mp h)
  simp only [ofPath?, if_neg (hother "/user" (by decide)), if_neg (hother "/health/live" (by decide)),
    if_neg (hother "/health/ready" (by decide)), if_neg (hother "/health/version" (by decide)), hlist,
    if_neg hsegment]

theorem Asks.parse? {r : ListUsers} {query : String} (h : Asks r query)
    (hlength : ("/user?" ++ query).utf8ByteSize ≤ Uri.maxLength) :
    Uri.parse? ("/user?" ++ query) = some { written := "/user", query := some query } := by
  have hpath : "/user".toList.all Uri.isPathChar = true := by decide
  have hsplit := Uri.splitTarget?_query (List.all_eq_true.mp hpath) h.isQueryChar
  rw [String.ofList_toList, String.ofList_toList] at hsplit
  exact Uri.parse?_slash String.toList_append hlength hsplit

/-- The first content type among some headers is that of JSON texts. The case of names does not
matter. -/
def SaysJson (headers : List Field) : Prop :=
  (headers.find? fun h => h.1.toList.map Char.toLower == "content-type".toList).map (·.2) =
    some "application/json"

/-- A header is found under its name in lower case. -/
theorem lookup_lower (headers : List Field) {name : String} :
    (headers.map fun h => (String.ofList (h.1.toList.map Char.toLower), h.2)).lookup name =
      (headers.find? fun h => h.1.toList.map Char.toLower == name.toList).map (·.2) := by
  induction headers with
  | nil => rfl
  | cons h headers ih =>
    rw [List.map_cons, List.lookup_cons, List.find?_cons, ih]
    by_cases hname : h.1.toList.map Char.toLower = name.toList
    · simp [hname]
    · have hother : name ≠ .ofList (h.1.toList.map Char.toLower) := by
        rintro rfl
        exact hname String.toList_ofList.symm
      rw [beq_eq_false_iff_ne.mpr hname, beq_eq_false_iff_ne.mpr hother]

theorem readBody_encode {α : Type} {decode : String → Except Json.Fault α} {r : Request}
    {text : String} {message : α} (hjson : r.header? "content-type" = some "application/json")
    (hbody : r.body = Text.encode text) (hlength : r.body.length ≤ maxBody)
    (hdecode : decode text = .ok message) : readBody decode r = .ok message := by
  have htype : (MediaType.parse? "application/json").any (·.isJson) = true := by decide +kernel
  have htext : bodyText r.body = text := by
    rw [bodyText, hbody, Text.decodeWith_encode, String.ofList_toList]
  simp only [readBody, hjson, Option.bind_some, htype, Bool.not_true, Bool.false_eq_true, if_false,
    if_neg (Nat.not_lt_of_le hlength), htext, hdecode]

/-- A request asks for an operation. The identifier of an account stands in the path, whatever the
body says of it. -/
inductive Sends : Roster.Request → (method uri : String) → List Field → List UInt8 → Prop
  | create {r : CreateUser} {headers : List Field} (hjson : SaysJson headers) :
      Sends (.create r) "POST" "/user" headers (Text.encode r.toJson.render)
  | list {r : ListUsers} {query : String} {headers : List Field} {body : List UInt8}
      (hquery : Asks r query) : Sends (.list r) "GET" ("/user?" ++ query) headers body
  | update {r : UpdateUser} {id : String} {segment : List Char} {headers : List Field}
      (hid : r.id ≠ "") (hsegment : EscapesSegment r.id segment) (hjson : SaysJson headers) :
      Sends (.update r) "PUT" (userPath segment) headers
        (Text.encode (UpdateUser.toJson { r with id }).render)
  | delete {r : DeleteUser} {segment : List Char} {headers : List Field} {body : List UInt8}
      (hid : r.id ≠ "") (hsegment : EscapesSegment r.id segment) :
      Sends (.delete r) "DELETE" (userPath segment) headers body

/-- Every operation can be sent, on an account if it names one. -/
theorem exists_sends (request : Roster.Request)
    (hid : ∀ id ∈ request.account?, id ≠ "") : ∃ method uri headers body,
      Sends request method uri headers body := by
  have hjson : SaysJson [("content-type", "application/json")] := rfl
  cases request with
  | create r => exact ⟨_, _, _, _, .create hjson⟩
  | list r =>
    obtain ⟨query, hquery⟩ := exists_asks r
    exact ⟨_, _, [], [], .list hquery⟩
  | update r =>
    obtain ⟨segment, hsegment⟩ := exists_escapes isSegmentChar (Text.encode r.id)
    exact ⟨_, _, _, _, @Sends.update r "" segment _ (hid r.id rfl) hsegment hjson⟩
  | delete r =>
    obtain ⟨segment, hsegment⟩ := exists_escapes isSegmentChar (Text.encode r.id)
    exact ⟨_, _, [], [], .delete (hid r.id rfl) hsegment⟩

/-- The response tells what came of an operation. -/
def Response.Tells (r : Response) : Except OperationError Roster.Response → Prop
  | .ok response => r.status = 200 ∧ r.body = .json response.toJson
  | .error (.invalid reason) =>
    r.status = 400 ∧ r.body = .json (.object [("error", .text ("bad request: " ++ reason.message))])
  | .error .notFound => r.status = 404 ∧ r.body = .json (.object [("error", .text "not found")])
  | .error (.unavailable ..) =>
    r.status = 503 ∧ r.body = .json (.object [("error", .text "service unavailable")])

theorem Response.Tells.congr {r r' : Response} {result : Except OperationError Roster.Response}
    (h : r.Tells result) (hstatus : r'.status = r.status) (hbody : r'.body = r.body) :
    r'.Tells result := by
  unfold Tells at h ⊢
  rwa [hstatus, hbody]

theorem Response.tells_ofResult (result : Except OperationError Roster.Response) :
    (ofResult (some result)).Tells result := by
  rcases result with (_ | _ | _) | response
  all_goals exact ⟨rfl, rfl⟩

/-- The request of some parts that are well formed. -/
theorem ofParts?_of_parse {method uri : String} {target : Uri} {headers : List Field}
    (hparse : Uri.parse? uri = some target) (hmethod : isToken method = true)
    (hheaders : ∀ h ∈ headers, isToken h.1 = true ∧ isHeaderValue h.2 = true) (body : List UInt8) :
    ∃ r, Request.ofParts? method uri headers body = some r ∧ r.method = method ∧ r.uri = target ∧
      r.body = body ∧ (SaysJson headers → r.header? "content-type" = some "application/json") := by
  have hwell : (headers.all fun h => isToken h.1 && isHeaderValue h.2) = true :=
    List.all_eq_true.mpr fun h hh => Bool.and_eq_true_iff.mpr (hheaders h hh)
  let lower := headers.map fun h => (String.ofList (h.1.toList.map Char.toLower), h.2)
  refine ⟨⟨method, target, lower, body⟩, ?_, rfl, rfl, rfl, fun hjson => ?_⟩
  · simp only [Request.ofParts?, hparse, hmethod, hwell, Bool.and_true, if_true]
    rfl
  · exact (lookup_lower headers).trans hjson

theorem demand_of_user {r : Request} {segment : List Char} {id : String} (hid : id ≠ "")
    (hsegment : EscapesSegment id segment) (hu : r.uri = { written := userPath segment }) :
    r.uri.target = userPath segment ∧ Route.ofPath? r.uri.path = some (.user (.ofList segment)) ∧
      pathId (.ofList segment) = .ok id := by
  have hroute := Route.ofPath?_userPath (hsegment.ne_nil hid) fun h => (hsegment.bounds _ h).2 rfl
  have hpath : r.uri.path = userPath segment := by simp [hu, Uri.path]
  refine ⟨?_, hpath ▸ hroute, ?_⟩
  · rw [Uri.target, hpath, hu]
    exact String.append_empty
  · rw [pathId, hsegment.unescape]

/-- What is sent for an operation is a request, and is understood as the operation. -/
theorem Sends.demand {request : Roster.Request} {method uri : String} {headers : List Field}
    {body : List UInt8} (h : Sends request method uri headers body)
    (hheaders : ∀ h ∈ headers, isToken h.1 = true ∧ isHeaderValue h.2 = true)
    (huri : uri.utf8ByteSize ≤ Uri.maxLength) (hbody : body.length ≤ maxBody) :
    ∃ r, Request.ofParts? method uri headers body = some r ∧ r.method = method ∧ r.uri.target = uri ∧
      r.demand = .ok (.call request) := by
  cases h with
  | @create m _ hjson =>
    have hparse : Uri.parse? "/user" = some { written := "/user" } := by decide +kernel
    obtain ⟨r, hr, hmethod, hu, hb, hc⟩ := ofParts?_of_parse hparse (by decide : isToken "POST" = true)
      hheaders (Text.encode m.toJson.render)
    have hroute : Route.ofPath? r.uri.path = some .users := hu ▸ rfl
    have hread := readBody_encode (hc hjson) hb (hb ▸ hbody) m.decode_render
    refine ⟨r, hr, hmethod, hu ▸ rfl, ?_⟩
    simp only [Request.demand, hroute, hmethod, hread]
    rfl
  | @list m query _ _ hquery =>
    obtain ⟨r, hr, hmethod, hu, -, -⟩ := ofParts?_of_parse (hquery.parse? huri)
      (by decide : isToken "GET" = true) hheaders body
    have hroute : Route.ofPath? r.uri.path = some .users := hu ▸ rfl
    have hq : r.uri.query.getD "" = query := hu ▸ rfl
    refine ⟨r, hr, hmethod, ?_, ?_⟩
    · have htarget : r.uri.target = "/user" ++ ("?" ++ query) := hu ▸ rfl
      rw [htarget, ← String.append_assoc]
      rfl
    · simp only [Request.demand, hroute, hmethod, hq, hquery.listOfParameters]
      rfl
  | @update m id segment _ hid hsegment hjson =>
    let sent : UpdateUser := { m with id }
    obtain ⟨r, hr, hmethod, hu, hb, hc⟩ := ofParts?_of_parse (hsegment.parse? huri)
      (by decide : isToken "PUT" = true) hheaders (Text.encode sent.toJson.render)
    obtain ⟨htarget, hroute, hpath⟩ := demand_of_user hid hsegment hu
    have hread := readBody_encode (hc hjson) hb (hb ▸ hbody) sent.decode_render
    refine ⟨r, hr, hmethod, htarget, ?_⟩
    simp only [Request.demand, hroute, hmethod, hpath, hread]
    rfl
  | @delete m segment _ _ hid hsegment =>
    obtain ⟨r, hr, hmethod, hu, -, -⟩ := ofParts?_of_parse (hsegment.parse? huri)
      (by decide : isToken "DELETE" = true) hheaders body
    obtain ⟨htarget, hroute, hpath⟩ := demand_of_user hid hsegment hu
    refine ⟨r, hr, hmethod, htarget, ?_⟩
    simp only [Request.demand, hroute, hmethod, hpath]
    rfl

end Http

namespace Server

open Http

/-- However a server over accounts came to be as it is, an operation that is sent in a request that is
not too long, and takes less than a request may take, has the effect of the same call of a client and
makes the same attempts to announce it; and what comes of the call is told in the response. -/
theorem sent_as_called {s : Server} (hs : s.core = .users) (draw : Draw) (freshRequestId : String)
    {request : Roster.Request} {method uri : String} {headers : List Field} {body : List UInt8}
    (hsends : Sends request method uri headers body)
    (hheaders : ∀ h ∈ headers, isToken h.1 = true ∧ isHeaderValue h.2 = true)
    (huri : uri.utf8ByteSize ≤ Uri.maxLength) (hbody : body.length ≤ maxBody)
    (htime : s.duration { draw, protocol := .http method uri, request } <
      s.http.requestTimeoutMs.toNat) :
    let c : ClientCall := { draw, protocol := .http method uri, request }
    ∃ r result, Http.Request.ofParts? method uri headers body = some r ∧
      (s.call c).value = some result ∧
      let step := s.respond draw freshRequestId r
      step.server = (s.call c).server ∧ s.attempts draw r = s.announced c ∧
        step.background = (s.call c).background ∧ step.deliveries = (s.call c).deliveries ∧
        step.value.Tells result := by
  intro c
  obtain ⟨r, hr, hmethod, htarget, hdemand⟩ := hsends.demand hheaders huri hbody
  have ha : (s.operation c).context.abandonedAt = none := rfl
  obtain ⟨result, hvalue⟩ := exists_value hs ha
  have hpatience : s.http.requestTimeoutMs.toNat ≤ s.patience := by
    unfold patience
    split
    · exact Nat.le_refl _
    · exact Nat.le_max_right _ _
  have hwaits : s.duration c < s.patience := Nat.lt_of_lt_of_le htime hpatience
  obtain ⟨hcall, hannounced⟩ := call_until hs ha hwaits
  have hverb : r.method ≠ "OPTIONS" ∧ r.method ≠ "HEAD" := by
    rw [hmethod]
    cases hsends <;> decide
  have hof : s.callOf? draw r = some (c.until s.patience) := by
    rw [callOf?_of_demand hverb.1 (Nat.ne_zero_of_lt hwaits) hdemand, hmethod, htarget]
  have hanswer : s.answer draw r = (s.call c).map .ofResult := by
    rw [answer_of_call hof, hcall]
  have hattempts : s.attempts draw r = s.announced c := by
    rw [attempts, hof, Option.toList_some, List.flatMap_singleton, hannounced]
  have htold : (s.answer draw r).value = .ofResult (some result) := by
    rw [hanswer, ← hvalue]
    rfl
  refine ⟨r, result, hr, hvalue, congrArg Step.server hanswer, hattempts,
    congrArg Step.background hanswer, congrArg Step.deliveries hanswer, ?_⟩
  apply (Response.tells_ofResult result).congr
  · rw [status_respond, htold]
  · rw [body_respond _ hverb.2, htold]

/-- An account whose identifier holds a slash is changed. The body names another account. -/
theorem sent_as_called_of_change :
    let s := initial.course [.call { draw := ⟨"é/b", .epoch⟩, request := .create {} }]
    let change : UpdateUser := { id := "é/b", profile := { nickname := "Bea" } }
    let headers := [("Content-Type", "application/json")]
    let body := Text.encode (UpdateUser.toJson { change with id := "c" }).render
    Sends (.update change) "PUT" "/user/%C3%a9%2Fb" headers body ∧
      ∃ r, Http.Request.ofParts? "PUT" "/user/%C3%a9%2Fb" headers body = some r ∧
        s.attempts ⟨"", .epoch⟩ r = [change.envelope] ∧
        (s.respond ⟨"", .epoch⟩ "1" r).value.Tells (.ok (.status .ok)) := by
  intro s change headers body
  have hbytes : Text.encode "é/b" = [0xC3, 0xA9, 0x2F, UInt8.ofNat 'b'.toNat] := by decide +kernel
  have hsegment : EscapesSegment "é/b" "%C3%a9%2Fb".toList := by
    rw [EscapesSegment, hbytes]
    exact .escaped rfl rfl (.escaped rfl rfl (.escaped rfl rfl (.plain rfl .nil)))
  have hsends : Sends (.update change) "PUT" "/user/%C3%a9%2Fb" headers body :=
    .update (by decide) hsegment rfl
  have hheaders : ∀ h ∈ headers, isToken h.1 = true ∧ isHeaderValue h.2 = true := by decide
  have huri : "/user/%C3%a9%2Fb".utf8ByteSize ≤ Uri.maxLength := by decide
  have hbody : body.length ≤ maxBody := by decide +kernel
  let c : ClientCall :=
    { draw := ⟨"", .epoch⟩, protocol := .http "PUT" "/user/%C3%a9%2Fb", request := .update change }
  have htime : s.duration c < s.http.requestTimeoutMs.toNat := by decide +kernel
  have hvalue : (s.call c).value = some (.ok (.status .ok)) := by decide +kernel
  have hannounced : s.announced c = [change.envelope] := by decide +kernel
  obtain ⟨r, result, hr, hresult, -, hattempts, -, -, htells⟩ :=
    sent_as_called rfl ⟨"", .epoch⟩ "1" hsends hheaders huri hbody htime
  obtain rfl : result = .ok (.status .ok) := Option.some.inj (hresult.symm.trans hvalue)
  exact ⟨hsends, r, hr, hattempts.trans hannounced, htells⟩

end Server

end Roster
