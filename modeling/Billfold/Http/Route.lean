import Billfold.Http.Target

/-!
# Routes

* `Place`          what a path names
* `Place.ofPath?`  the place with a path
* `Place.label`    the pattern of its paths, without the version in front
* `Route`          what a method does at a place
* `routeOf?`       the route of a method, if the place has one
-/

namespace Billfold.Http

inductive Place where
  /-- a page about the service -/
  | page (name : String)
  | health
  | metrics
  | entries
  | entry (id : String)
  | merging (id : String)
  | dismissal (id : String)
  | cycle (account : String)
  | plan (account group : String)
deriving DecidableEq, Repr

namespace Place

/-- the last word of a path; a line may end behind it -/
def lastWord (cs : List Char) : String :=
  String.ofList (if cs.getLast? = some '\n' then cs.dropLast else cs)

def atTop? : String → Option Place
  | "health" => some health
  | "metrics" => some metrics
  | "openapi.json" => some (page "/openapi.json")
  | "docs" => some (page "/docs")
  | "redoc" => some (page "/redoc")
  | _ => none

def name? (cs : List Char) : Option String :=
  if cs.isEmpty then none else some (String.ofList cs)

def ofEntry? (id : String) : String → Option Place
  | "merge_duplicate" => some (merging id)
  | "dismiss_duplicate" => some (dismissal id)
  | _ => none

def ofAccount? (id : String) : List (List Char) → Option Place
  | [last] => if lastWord last = "billing_cycle" then some (cycle id) else none
  | [word, group] =>
    if String.ofList word = "installments" then (name? group).map (plan id) else none
  | _ => none

def ofVersion? : String → List (List Char) → Option Place
  | "transactions", [id] => (name? id).map entry
  | "transactions", [id, last] => do ofEntry? (← name? id) (lastWord last)
  | "accounts", id :: rest => do ofAccount? (← name? id) rest
  | _, _ => none

/-- the place with these path segments -/
def ofSegments? : List (List Char) → Option Place
  | [last] => atTop? (lastWord last)
  | [first, last] =>
    match String.ofList first, lastWord last with
    | "v1", "transactions" => some entries
    | "docs", "oauth2-redirect" => some (page "/docs/oauth2-redirect")
    | _, _ => none
  | first :: word :: rest =>
    if String.ofList first = "v1" then ofVersion? (String.ofList word) rest else none
  | [] => none

def ofPath? : List Char → Option Place
  | '/' :: rest => ofSegments? (Text.splitAt '/' rest)
  | _ => none

/-- the pattern of a place's paths -/
def label : Place → String
  | page name => name
  | health => "/health"
  | metrics => "/metrics"
  | entries => "/transactions"
  | entry _ => "/transactions/\x7btransaction_id\x7d"
  | merging _ => "/transactions/\x7btransaction_id\x7d/merge_duplicate"
  | dismissal _ => "/transactions/\x7btransaction_id\x7d/dismiss_duplicate"
  | cycle _ => "/accounts/\x7baccount_id\x7d/billing_cycle"
  | plan _ _ => "/accounts/\x7baccount_id\x7d/installments/\x7bgroup_id\x7d"

end Place

inductive Route where
  | showPage
  | showHealth
  | showMetrics
  | createEntries
  | showEntry (id : String)
  | changeEntry (id : String)
  | mergeEntry (id : String)
  | dismissEntry (id : String)
  | showCycle (account : String)
  | showPlan (account group : String)
deriving DecidableEq, Repr

def routeOf? (method : String) : Place → Option Route
  | .page _ => if method = "GET" ∨ method = "HEAD" then some .showPage else none
  | .health => if method = "GET" then some .showHealth else none
  | .metrics => if method = "GET" then some .showMetrics else none
  | .entries => if method = "POST" then some .createEntries else none
  | .entry id =>
    if method = "GET" then some (.showEntry id)
    else if method = "PATCH" then some (.changeEntry id)
    else none
  | .merging id => if method = "POST" then some (.mergeEntry id) else none
  | .dismissal id => if method = "POST" then some (.dismissEntry id) else none
  | .cycle account => if method = "GET" then some (.showCycle account) else none
  | .plan account group => if method = "GET" then some (.showPlan account group) else none

/-- a path without the slashes at its end, if it has some -/
def withoutSlash? (path : List Char) : Option (List Char) :=
  if path.getLast? = some '/' ∧ path ≠ ['/'] then
    some (path.reverse.dropWhile (· == '/')).reverse
  else
    none

end Billfold.Http
