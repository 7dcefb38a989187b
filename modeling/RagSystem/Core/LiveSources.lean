import RagSystem.Data.Json
import RagSystem.Data.QuotedText

/-! The searches of the live clients of `proxy/app/core/live_sources.py`, and when the clause that
they send quotes the query. -/

namespace RagSystem.Core.LiveSources

open QuotedText

/-! The clients and their cache. -/

/-- A live client with its cached results, each with the time at which it expires. -/
structure Client (ρ : Type) where
  enabled : Bool
  baseUrl : String
  cache : Dict String (ρ × ℚ) := ∅

def cacheTtl : ℚ := 60

section Cache

variable {ρ : Type}

/-- `_get_from_cache`; an expired entry is deleted. -/
def getFromCache (client : Client ρ) (now : ℚ) (key : String) : Option ρ × Client ρ :=
  match client.cache.get? key with
  | some (value, expireAt) =>
      if now < expireAt then (some value, client)
      else (none, { client with cache := client.cache.erase key })
  | none => (none, client)

/-- `_set_cache` -/
def setCache (client : Client ρ) (now : ℚ) (key : String) (value : ρ) : Client ρ :=
  { client with cache := client.cache.set key (value, now + cacheTtl) }

end Cache

structure Request where
  url : String
  params : List (String × Json)
  deriving Repr

/-- How a request ends: with an exception that is caught, with another status than 200, or with
the items of its body. -/
inductive Reply (ι : Type)
  | failed
  | refused (status : Nat)
  | items (found : List ι)

/-- What a search sends and returns, and the client after it. -/
structure Searched (ρ : Type) where
  sent : Option Request := none
  results : List ρ := []
  client : Client (List ρ)

/-- What the searches share: the cache is asked first, and a good answer is kept. The clock is
read twice. -/
def search {ι ρ : Type} (client : Client (List ρ)) (now later : ℚ) (cacheKey : String)
    (request : Request) (parse : ι → ρ) (reply : Request → Reply ι) : Searched ρ :=
  if client.enabled ∧ client.baseUrl ≠ "" then
    match getFromCache client now cacheKey with
    | (some cached, client) => { results := cached, client }
    | (none, client) =>
        match reply request with
        | .items found =>
            let results := found.map parse
            { sent := some request, results, client := setCache client later cacheKey results }
        | _ => { sent := some request, client }
  else { client }

/-! The two searches. -/

structure ConfluenceItem where
  id : Option String := none
  title : Option String := none
  spaceKey : Option String := none
  type : Option String := none
  bodyView : Option String := none

structure ConfluencePage where
  id : String
  title : String
  spaceKey : String
  pageType : String
  body : String
  url : String
  deriving DecidableEq, Repr

structure JiraItem where
  id : Option String := none
  key : Option String := none
  summary : Option String := none
  description : Option (Option String) := none
  status : Option String := none
  priority : Option String := none
  assignee : Option String := none
  issueType : Option String := none

structure JiraIssue where
  id : String
  key : String
  summary : String
  description : String
  status : String
  priority : String
  assignee : String
  issueType : String
  deriving DecidableEq, Repr

/-- `query.replace('"', '\\"')` -/
def safeQuery (query : String) : String := String.ofList (escapeQuotes '"' '\\' query.toList)

def textClause (query : String) : String := "text ~ \"" ++ safeQuery query ++ "\""

def confluenceKey (query : String) (maxResults : Int) : String :=
  "conf_search:" ++ query ++ ":" ++ toString maxResults

def confluencePage (baseUrl : String) (item : ConfluenceItem) : ConfluencePage where
  id := item.id.getD ""
  title := item.title.getD ""
  spaceKey := item.spaceKey.getD ""
  pageType := item.type.getD "page"
  body := item.bodyView.getD ""
  url := baseUrl ++ "/content/" ++ item.id.getD ""

def searchConfluence (client : Client (List ConfluencePage)) (now later : ℚ) (query : String)
    (maxResults : Int) (reply : Request → Reply ConfluenceItem) : Searched ConfluencePage :=
  search client now later (confluenceKey query maxResults)
    { url := client.baseUrl ++ "/content/search"
      params := [("cql", .str (textClause query)), ("limit", .int maxResults),
        ("expand", .str "space,body.view")] }
    (confluencePage client.baseUrl) reply

def jiraKey (query : String) (maxResults : Int) : String :=
  "jira_search:" ++ query ++ ":" ++ toString maxResults

def jiraIssue (item : JiraItem) : JiraIssue where
  id := item.id.getD ""
  key := item.key.getD ""
  summary := item.summary.getD ""
  description := (item.description.getD (some "")).getD ""
  status := item.status.getD ""
  priority := item.priority.getD ""
  assignee := item.assignee.getD ""
  issueType := item.issueType.getD ""

def searchJira (client : Client (List JiraIssue)) (now later : ℚ) (query : String)
    (maxResults : Int) (reply : Request → Reply JiraItem) : Searched JiraIssue :=
  search client now later (jiraKey query maxResults)
    { url := client.baseUrl ++ "/search"
      params := [("jql", .str (textClause query)), ("maxResults", .int maxResults),
        ("fields", .str "summary,description,status,priority,assignee,issuetype")] }
    jiraIssue reply

/-! What goes out. -/

def Asks {ρ : Type} (client : Client ρ) (now : ℚ) (key : String) : Prop :=
  client.enabled = true ∧ client.baseUrl ≠ "" ∧
    ∀ value expireAt, client.cache.get? key = some (value, expireAt) → expireAt ≤ now

theorem getFromCache_eq_none_iff {ρ : Type} {client : Client ρ} {now : ℚ} {key : String} :
    (getFromCache client now key).1 = none ↔
      ∀ value expireAt, client.cache.get? key = some (value, expireAt) → expireAt ≤ now := by
  rw [getFromCache]
  cases found : client.cache.get? key with
  | none => simp
  | some entry =>
      obtain ⟨value, expireAt⟩ := entry
      by_cases fresh : now < expireAt
      · simp [fresh]
      · simp [fresh, not_lt.mp fresh]

theorem sent_search_iff {ι ρ : Type} {client : Client (List ρ)} {now later : ℚ} {key : String}
    {request sent : Request} {parse : ι → ρ} {reply : Request → Reply ι} :
    (search client now later key request parse reply).sent = some sent ↔
      Asks client now key ∧ sent = request := by
  rw [Asks, ← getFromCache_eq_none_iff, search]
  by_cases live : client.enabled = true ∧ client.baseUrl ≠ ""
  · rw [if_pos live]
    cases asked : getFromCache client now key with
    | mk cached client =>
        cases cached with
        | some value => simp
        | none =>
            cases answer : reply request with
            | failed => simp [live, eq_comm]
            | refused status => simp [live, eq_comm]
            | items found => simp [live, eq_comm]
  · rw [if_neg live]
    constructor
    · intro none_sent
      cases none_sent
    · intro asks
      exact absurd ⟨asks.1.1, asks.1.2.1⟩ live

/-! Clauses that quote. -/

/-- The parameter is one `text ~` clause, whose literal ends with it and denotes the query. -/
def Quotes (request : Request) (param query : String) : Prop :=
  ∃ clause literal, request.params.lookup param = some (.str clause) ∧
    clause.toList = "text ~ \"".toList ++ literal ∧
    readLiteral '"' '\\' literal = some (query.toList, [])

theorem toList_textClause (query : String) :
    (textClause query).toList =
      "text ~ \"".toList ++ (escapeQuotes '"' '\\' query.toList ++ ['"']) := by
  have safe : (safeQuery query).toList = escapeQuotes '"' '\\' query.toList :=
    String.toList_ofList
  rw [textClause, String.toList_append, String.toList_append, safe, List.append_assoc]
  rfl

theorem quotes_textClause_iff {request : Request} {param query : String}
    (clause : request.params.lookup param = some (.str (textClause query))) :
    Quotes request param query ↔ '\\' ∉ query.toList := by
  have distinct : '\\' ≠ '"' := by decide
  rw [← readLiteral_escapeQuotes_iff distinct]
  constructor
  · intro quotes
    obtain ⟨other, literal, found, split, whole⟩ := quotes
    rw [clause] at found
    obtain rfl := Json.str.inj (Option.some.inj found)
    rw [toList_textClause] at split
    obtain rfl := List.append_cancel_left split
    exact whole
  · intro whole
    exact ⟨_, _, clause, toList_textClause query, whole⟩

section Searches

variable (confluence : Client (List ConfluencePage)) (jira : Client (List JiraIssue))
  (now later : ℚ) (query : String) (maxResults : Int)
  (pages : Request → Reply ConfluenceItem) (issues : Request → Reply JiraItem)

/-- Whatever the two searches send quotes the query. -/
def SentQuoted : Prop :=
  (∀ request, (searchConfluence confluence now later query maxResults pages).sent = some request →
    Quotes request "cql" query) ∧
  ∀ request, (searchJira jira now later query maxResults issues).sent = some request →
    Quotes request "jql" query

/-- Only a query without a backslash may be sent. -/
theorem sentQuoted_iff : SentQuoted confluence jira now later query maxResults pages issues ↔
    '\\' ∉ query.toList ∨ (¬ Asks confluence now (confluenceKey query maxResults) ∧
      ¬ Asks jira now (jiraKey query maxResults)) := by
  rw [SentQuoted, searchConfluence, searchJira]
  simp only [sent_search_iff]
  constructor
  · intro quoted
    by_cases plain : '\\' ∈ query.toList
    · right
      constructor
      · intro asks
        exact (quotes_textClause_iff rfl).mp (quoted.1 _ ⟨asks, rfl⟩) plain
      · intro asks
        exact (quotes_textClause_iff rfl).mp (quoted.2 _ ⟨asks, rfl⟩) plain
    · exact Or.inl plain
  · intro fine
    constructor
    · intro request sent
      obtain ⟨asks, rfl⟩ := sent
      exact (quotes_textClause_iff rfl).mpr (fine.resolve_right (fun quiet => quiet.1 asks))
    · intro request sent
      obtain ⟨asks, rfl⟩ := sent
      exact (quotes_textClause_iff rfl).mpr (fine.resolve_right (fun quiet => quiet.2 asks))

end Searches

/-- A query that closes the literal and adds a clause of its own. -/
theorem query_not_quoted :
    ¬ SentQuoted { enabled := true, baseUrl := "https://confluence.example.com/rest/api" }
      { enabled := true, baseUrl := "https://jira.example.com/rest/api/2" } 0 0
      "\\\" OR space = HR OR text ~ \\\"" 5 (fun _ => .items []) (fun _ => .items []) := by
  intro quoted
  have request := quoted.1 _ rfl
  rw [quotes_textClause_iff rfl] at request
  exact request (by decide)

end RagSystem.Core.LiveSources
