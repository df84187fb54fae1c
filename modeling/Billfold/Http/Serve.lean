import Billfold.Http.Form
import Billfold.Http.Render
import Billfold.Http.Route
import Billfold.Text.Capital

/-!
# The service

* `Request`, `Response`   what comes in and what goes out
* `respond`               what a route answers
* `follow`                the answer after the redirects that lead to it
* `serve`                 a request answered, counted, and marked with its id
-/

namespace Billfold.Http

open Act

structure Request where
  method : String
  path : String
  /-- the parameters that take the place of the path's query, if there are any -/
  params : Option (List (String × Json))
  headers : List (String × String)
  body : Body

structure Response where
  status : Nat
  /-- the id of the request; none if the request failed without an answer of its own -/
  request : Option String
  body : Json

/-! ## answers -/

/-- a status and a body -/
abbrev Answer := Nat × Json

/-- the answer to a form that is refused; with each error it tells what was given -/
def formAnswer : FormFault → Act Answer
  | .fields errors =>
    if areShowable errors then pure (422, .object [("detail", formErrors errors)])
    else fail (.fault .badValue)
  | .unreadable => pure (400, renderDetail "There was an error parsing the body")

/-- the answer to an input that the ledger refuses, or to what is not there -/
def answerTo (e : Error) : Act Answer :=
  match e with
  | .refused why => pure (422, renderDetail why.message)
  | .notFound what => pure (404, renderDetail what.message)
  | e => fail e

/-- an answer that must be possible to show -/
def shown (status : Nat) (body : Option Json) : Act Answer :=
  match body with
  | some json => pure (status, json)
  | none => fail (.fault .badValue)

def requestField (request : String) : Fields := [("request_id", .text request)]

/-! ## routes -/

def health : Act Answer := do
  let s ← get
  let state (word : String) : Json := .object [
    ("status", .text word),
    ("service", .text s.settings.serviceName),
    ("database", .text "sqlite"),
    ("max_installments", .int s.settings.maxInstallments),
    ("default_installment_mode", .text s.settings.defaultMode)]
  return if s.storeUp then (200, state "ok") else (503, state "unavailable")

/-- the names and kinds of all that is measured -/
def metricNames : List String := [
  "http_request_duration_seconds histogram",
  "ledger_cycle_locks_total counter",
  "ledger_duplicate_resolutions_total counter",
  "ledger_installment_batch_failures_total counter",
  "ledger_installment_lines_total counter",
  "ledger_installment_plans_total counter"]

/-- the store's own words about a refused row -/
def refusedRowText : String :=
  "(builtins.Exception) disk full\n[SQL: INSERT]\n(Background on this error at: https:" ++
    "//sqlalche.me/e/21/e3q8)"

def createEntries (request : String) (f : CreateForm) : Act Answer := do
  match ← attempt (Ledger.create (f.entry request)) with
  | .ok entries =>
    let infos ← entries.mapM fun e => Ledger.paymentInfo (e.id.getD "")
    shown 201 ((infos.mapM renderInfo?).map fun list => .object [("transactions", .list list)])
  | .error (.refused why) =>
    note .warning ("Rejected transaction: " ++ why.message) (requestField request)
    return (422, renderDetail why.message)
  | .error (.batchFailed rows) =>
    let words := (Error.message? (.batchFailed rows)).getD ""
    note .error ("Installment batch rolled back: " ++ words ++ ": " ++ refusedRowText)
      (requestField request)
    return (500, renderDetail "Could not create transactions")
  | .error e => answerTo e

def showEntry (id : String) : Act Answer := do
  match ← attempt (Ledger.paymentInfo id) with
  | .ok info => shown 200 (renderInfo? info)
  | .error e => answerTo e

def showAfter (id : String) (change : Act Entry) : Act Answer := do
  match ← attempt change with
  | .ok _ => showEntry id
  | .error e => answerTo e

def mergeEntry (request id : String) : Act Answer := do
  match ← attempt (Ledger.merge id (some request)) with
  | .ok merged => return (200, renderMerged merged)
  | .error (.notFound what) =>
    note .warning ("Merge failed: " ++ what.message) (requestField request)
    return (404, renderDetail what.message)
  | .error e => fail e

/-- the day that a query asks about, or else today -/
def referenceDay (target : Target) (today : Date) : Form Date :=
  match target.param? "reference_date" with
  | none => .ok today
  | some text =>
    (dateOfText text).mapError fun problem =>
      .fields [⟨[.text "query", .text "reference_date"], problem, .text text⟩]

def showCycle (account : String) (target : Target) : Act Answer := do
  match referenceDay target (← get).clock.date with
  | .error fault => formAnswer fault
  | .ok reference =>
    match ← attempt (Ledger.billingCycle account reference) with
    | .ok (cycle, window) => return (200, renderCycle account reference cycle window)
    | .error e => answerTo e

def showPlan (account group : String) : Act Answer := do
  match ← attempt (Ledger.group account group) with
  | .ok infos =>
    let total ← ofFault (Decimal.sum (infos.map fun info => info.entry.amount))
    shown 200 (renderGroup? group total infos)
  | .error e => answerTo e

/-- what a route answers; `isJson` tells that the body is said to be JSON -/
def respond (request : String) (target : Target) (isJson : Bool) (body : Body) : Route → Act Answer
  | .showPage => pure (200, .text "")
  | .showHealth => health
  | .showMetrics => pure (200, .list (metricNames.map Json.text))
  | .createEntries =>
    match body.fields isJson >>= createForm with
    | .ok form => createEntries request form
    | .error fault => formAnswer fault
  | .showEntry id => showEntry id
  | .changeEntry id =>
    match body.fields isJson >>= updateForm with
    | .ok changes => showAfter id (Ledger.update id changes)
    | .error fault => formAnswer fault
  | .mergeEntry id => mergeEntry request id
  | .dismissEntry id => showAfter id (Ledger.dismiss id (some request))
  | .showCycle account => showCycle account target
  | .showPlan account group => showPlan account group

/-! ## requests -/

namespace Request

/-- the value of the first header with the name, in letters of either case -/
def header? (r : Request) (name : String) : Option String :=
  (r.headers.find? fun (key, _) => key.toLower == name).map Prod.snd

/-- whether the body is said to be JSON; without a word about it, it is -/
def isJson (r : Request) : Bool :=
  match r.header? "content-type" with
  | none => true
  | some value =>
    let kind := Text.trim Text.isBlank (value.toList.takeWhile (· != ';'))
    match Text.splitAt '/' (kind.map Char.toLower) with
    | [main, sub] =>
      main == "application".toList &&
        (sub == "json".toList || "+json".toList.isSuffixOf sub)
    | _ => false

def isAscii (s : String) : Bool := s.toList.all fun c => c.toNat < 128

/-- the request can be sent: its headers are ASCII, and its body can be written -/
def needSendable (r : Request) : Except Fault Unit := do
  if !(r.headers.all fun (name, value) => isAscii name && isAscii value) then
    .error .unwritableText
  if !r.body.isSendable then .error .badValue

/-- what arrives of a body: nothing after a request for the head alone, and of `/metrics` only the
names in a listing -/
def arriving (r : Request) (body : Json) : Json :=
  let body := if r.method = "HEAD" then .text "" else body
  if r.path = "/metrics" then
    match body with
    | .list names => .list names
    | _ => .list []
  else body

end Request

/-- the reference of a request, to a scheme that is served -/
def needServed (r : Reference) : Except Fault Unit :=
  let scheme := String.ofList r.scheme
  if !r.isWhole then .ok ()
  else if scheme = "ws" ∨ scheme = "wss" then .error .openConnection
  else if scheme ≠ "http" ∧ scheme ≠ "https" then .error .unknownScheme
  else if (bracketed? r.host).isSome then .error .badValue
  else .ok ()

/-- the id that a request brings, or else a new one -/
def requestId (r : Request) : Act String :=
  match r.header? "x-request-id" with
  | some id => if id.isEmpty then freshRequest else pure id
  | none => freshRequest

/-- the answer to a method at a path, and the label it is counted under -/
def answerAt (r : Request) (request : String) (target : Target) : String × Act Answer :=
  match Place.ofPath? target.path with
  | some place =>
    (place.label, match routeOf? r.method place with
      | some route => respond request target r.isJson r.body route
      | none => pure (405, renderDetail "Method Not Allowed"))
  | none => (target.label, pure (404, renderDetail "Not Found"))

def serveAt (r : Request) (target : Target) : Act Response := do
  let id ← requestId r
  let (label, answer) := answerAt r id target
  match ← attempt answer with
  | .ok (status, body) =>
    count (.requests label r.method status) 1
    return ⟨status, some id, r.arriving body⟩
  | .error _ => return ⟨500, none, r.arriving (.text "Internal Server Error")⟩

/-- the path without slashes at its end, where only that path has a place -/
def redirect? (target : Target) : Option Target :=
  match Place.ofPath? target.path with
  | some _ => none
  | none => do
    let path ← withoutSlash? target.path
    let _ ← Place.ofPath? path
    some (target.redirect path)

/-- a request at a path, sent on at most `hops` times before it is answered; each time it is sent on
counts as a request -/
def follow (r : Request) (hops : Nat) (target : Target) : Act Response :=
  match redirect? target with
  | none => serveAt r target
  | some other => do
    let _ ← requestId r
    count (.requests target.label r.method 307) 1
    match hops with
    | 0 => fail (.fault .endlessRedirect)
    | hops + 1 => follow r hops other

/-- how often a request is sent on -/
def maxHops : Nat := 20

/-- a request answered, its method in capital letters -/
def serve (request : Request) : Act Response := do
  let r := { request with method := Text.toCapitals request.method }
  match Reference.parse? r.path.toList with
  | none => fail (.fault .badAddress)
  | some reference => do
    ofFault r.needSendable
    ofFault (needServed reference)
    follow r maxHops (.of reference r.params)

end Billfold.Http
