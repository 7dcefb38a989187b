import RagSystem.Etl.CollectDocuments
import RagSystem.Shared.AccessControl

/-! What the extractors read of a source object, the access list they make of it
(`etl/extractors/acl_extractor.py`), and the files they write. -/

namespace RagSystem.Etl

open AccessControl (roleAllowedLevels)

structure Subject where
  identifier : String := ""
  subjectType : String := ""
  deriving DecidableEq, Repr

/-- A page as the API answers; `content` has the fields that `extract_page` copies. -/
structure ConfluencePage where
  content : PageFile
  ownSpaceKey : String := ""
  restrictions : List (List Subject) := []
  labels : List String := []

structure SecurityLevel where
  name : String := ""
  id : String := ""
  deriving DecidableEq, Repr

/-- An issue as the API answers; `content` has the fields that `_process_issue` copies. -/
structure JiraIssue where
  content : IssueFile
  fieldsSecurity : Option SecurityLevel := none
  security : Option SecurityLevel := none
  ownProjectKey : String := ""

/-- A member of a project; a missing key is `none`. -/
structure Member where
  memberType : String := ""
  name : Option String := none
  path : Option String := none
  username : Option String := none
  deriving DecidableEq, Repr

structure GitlabProject where
  id : Nat
  fullPath : Option String := none
  visibility : Option String := none
  members : List Member := []
  deriving DecidableEq, Repr

/-! ### Departments -/

def defaultDepartmentMap : List (String × String) :=
  [("ENG", "engineering"), ("DEV", "engineering"), ("FE", "engineering"), ("BE", "engineering"),
    ("HR", "hr"), ("FIN", "finance"), ("MKT", "marketing"), ("OPS", "operations"),
    ("SEC", "security"), ("QA", "quality"), ("PM", "product"), ("DES", "design"),
    ("INFRA", "infrastructure"), ("DATA", "data"), ("SRE", "sre"), ("LEGAL", "legal"),
    ("SUP", "support")]

/-- `str.upper` of a character, as far as ASCII letters come of it. -/
def upperChars (char : Char) : List Char :=
  match char with
  | 'ı' => ['I']
  | 'ſ' => ['S']
  | 'ß' => ['S', 'S']
  | 'ﬀ' => ['F', 'F']
  | 'ﬁ' => ['F', 'I']
  | 'ﬂ' => ['F', 'L']
  | 'ﬃ' => ['F', 'F', 'I']
  | 'ﬄ' => ['F', 'F', 'L']
  | 'ﬅ' => ['S', 'T']
  | 'ﬆ' => ['S', 'T']
  | other => [other.toUpper]

def keyPrefix (key : String) : String :=
  String.ofList ((key.toList.takeWhile (· ≠ '-')).flatMap upperChars)

def mapDepartmentFromSpace (spaceKey : String) : String :=
  if spaceKey = "" then "general"
  else (defaultDepartmentMap.lookup (keyPrefix spaceKey)).getD "general"

def mapDepartmentFromProject (projectKey : String) : String :=
  if projectKey = "" then "" else (defaultDepartmentMap.lookup (keyPrefix projectKey)).getD ""

/-! ### Access lists -/

def sensitiveLabels : List String := ["confidential", "restricted", "internal"]

/-- The labels are compared in lower case; only ASCII letters have one of these for theirs. -/
def ConfluencePage.sensitive (page : ConfluencePage) : Bool :=
  page.labels.any (fun label => decide (label.toLower ∈ sensitiveLabels))

def ConfluencePage.spaceKey (page : ConfluencePage) : String :=
  orElse "" page.ownSpaceKey page.content.spaceKey

def ConfluencePage.subjects (page : ConfluencePage) (subjectType : String) : List String :=
  (page.restrictions.flatten.filter (fun subject => subject.subjectType = subjectType)).map
    Subject.identifier

def extractConfluenceAcl (page : ConfluencePage) : DocumentAcl :=
  let level := if page.restrictions = [] then "public" else "restricted"
  let groups := page.subjects "group"
  let department := mapDepartmentFromSpace page.spaceKey
  let groups := if page.spaceKey ≠ "" ∧ department ≠ "" ∧ department ≠ "general" ∧
      department ∉ groups then groups ++ [department] else groups
  { accessLevel := if page.sensitive ∧ level = "public" then "internal" else level
    allowedGroups := groups.eraseDups
    allowedUsers := (page.subjects "user").eraseDups
    sourcePermissions := if page.spaceKey = "" then Dict.empty
      else Dict.empty.set "space_key" (Json.str page.spaceKey) }

def JiraIssue.securityLevel (issue : JiraIssue) : Option SecurityLevel :=
  issue.fieldsSecurity.or issue.security

def JiraIssue.projectKey (issue : JiraIssue) : String :=
  orElse "" issue.content.projectKey issue.ownProjectKey

def extractJiraAcl (issue : JiraIssue) : DocumentAcl :=
  let secured : Dict String Json := match issue.securityLevel with
    | none => Dict.empty
    | some level =>
        (Dict.empty.set "security_scheme" (Json.str level.name)).set "security_level"
          (Json.str level.id)
  let department := mapDepartmentFromProject issue.projectKey
  { accessLevel := if issue.securityLevel.isSome then "restricted" else "public"
    allowedGroups := if department = "" then [] else [department]
    allowedUsers := []
    sourcePermissions := if issue.projectKey = "" then secured
      else secured.set "project_key" (Json.str issue.projectKey) }

def Member.isGroup (member : Member) : Bool := member.memberType.toLower = "group"

def Member.groupName (member : Member) : String := member.name.getD (member.path.getD "")

def Member.userName (member : Member) : String := member.username.getD (member.name.getD "")

/-- `members` is the argument of its own; without any the members of the project are used. -/
def extractGitlabAcl (project : GitlabProject) (members : List Member) : DocumentAcl :=
  let visibility := project.visibility.getD "internal"
  let listed := orElse [] members project.members
  { accessLevel := if visibility = "private" then "restricted"
      else if visibility = "internal" then "internal" else "public"
    allowedGroups := if visibility = "private" then
      ((listed.filter Member.isGroup).map Member.groupName).eraseDups else []
    allowedUsers := if visibility = "private" then
      ((listed.filter (fun member => !member.isGroup)).map Member.userName).eraseDups else []
    sourcePermissions := Dict.empty.set "visibility" (Json.str visibility) }

/-! ### The files -/

/-- What the extractor has of a project when it saves it; the files by their paths. -/
structure ProjectData where
  project : GitlabProject
  commits : List CommitFile := []
  mergeRequests : List MergeRequestFile := []
  filesData : List (String × String) := []
  deriving DecidableEq, Repr

/-- `path.replace("/", "_").replace("\\", "_")`. -/
def safeName (path : String) : String :=
  String.ofList (path.toList.map fun char => if char = '/' ∨ char = '\\' then '_' else char)

def extractPage (page : ConfluencePage) : PageFile :=
  { page.content with acl := extractConfluenceAcl page }

def savePageData (page : ConfluencePage) : ObjectDir :=
  { name := page.content.id, page := some (extractPage page) }

def processIssue (issue : JiraIssue) : IssueFile :=
  { issue.content with acl := extractJiraAcl issue }

def saveIssue (issue : JiraIssue) : ObjectDir :=
  { name := issue.content.key, issue := some (processIssue issue) }

/-- Nothing is written of an empty list; of two files with one safe name the later one stays. -/
def saveProjectData (data : ProjectData) : ObjectDir :=
  let project := data.project
  { name := toString project.id
    project := some
      { id := some project.id, fullPath := project.fullPath, visibility := project.visibility
        acl := extractGitlabAcl project [] }
    commits := if data.commits = [] then none else some data.commits
    mergeRequests := if data.mergeRequests = [] then none else some data.mergeRequests
    files := if data.filesData = [] then none
      else some (Dict.ofList (data.filesData.map fun file => (safeName file.1, file.2))) }

inductive SourceItem
  | page (page : ConfluencePage)
  | issue (issue : JiraIssue)
  | project (data : ProjectData)

namespace SourceItem

def sourceName : SourceItem → SourceName
  | .page _ => .confluence
  | .issue _ => .jira
  | .project _ => .gitlab

def saved : SourceItem → ObjectDir
  | .page source => savePageData source
  | .issue source => saveIssue source
  | .project data => saveProjectData data

end SourceItem

/-! ### Who is admitted -/

/-- The level is public or internal and within the user's roles, or the user or one of the user's
groups is listed. -/
def DocumentAcl.Admits (acl : DocumentAcl) (user : UserContext) : Prop :=
  (acl.accessLevel = "public" ∨ acl.accessLevel = "internal") ∧
      acl.accessLevel ∈ roleAllowedLevels user ∨
    user.username ∈ acl.allowedUsers ∨ ∃ group ∈ user.groups, group ∈ acl.allowedGroups

instance (acl : DocumentAcl) (user : UserContext) : Decidable (acl.Admits user) :=
  inferInstanceAs (Decidable (_ ∨ _))

section Admitted

variable {user : UserContext}

def ConfluencePage.ofDepartment (page : ConfluencePage) (group : String) : Prop :=
  page.spaceKey ≠ "" ∧ mapDepartmentFromSpace page.spaceKey = group ∧ group ≠ "general"

theorem lookup_ne_empty {key department : String}
    (found : defaultDepartmentMap.lookup key = some department) : department ≠ "" := by
  have listed : department ∈ defaultDepartmentMap.map Prod.snd := by
    obtain ⟨before, after, shape, -⟩ := List.lookup_eq_some_iff.mp found
    rw [shape]
    simp
  intro given
  rcases given with rfl
  exact absurd listed (by decide)

theorem mapDepartmentFromSpace_ne_empty (spaceKey : String) :
    mapDepartmentFromSpace spaceKey ≠ "" := by
  unfold mapDepartmentFromSpace
  split
  · decide
  · cases found : defaultDepartmentMap.lookup (keyPrefix spaceKey) with
    | none => decide
    | some department => exact lookup_ne_empty found

theorem mem_confluence_groups {page : ConfluencePage} {group : String} :
    group ∈ (extractConfluenceAcl page).allowedGroups ↔
      group ∈ page.subjects "group" ∨ page.ofDepartment group := by
  have worded := mapDepartmentFromSpace_ne_empty page.spaceKey
  simp only [extractConfluenceAcl, List.mem_eraseDups, ConfluencePage.ofDepartment]
  split
  · rename_i added
    rw [List.mem_append, List.mem_singleton]
    grind
  · grind

/-- A page without read restrictions admits the levels its labels leave to the user; any page admits
the users and groups it names, and the department of its space. -/
def ConfluencePage.OpenTo (page : ConfluencePage) (user : UserContext) : Prop :=
  (page.restrictions = [] ∧
      (page.sensitive = true → "internal" ∈ roleAllowedLevels user)) ∨
    user.username ∈ page.subjects "user" ∨
    ∃ group ∈ user.groups, group ∈ page.subjects "group" ∨ page.ofDepartment group

theorem confluence_admits_iff {page : ConfluencePage} :
    (extractConfluenceAcl page).Admits user ↔ page.OpenTo user := by
  have everyone := AccessControl.public_mem_roleAllowedLevels user
  have named : user.username ∈ (extractConfluenceAcl page).allowedUsers ↔
      user.username ∈ page.subjects "user" := by simp [extractConfluenceAcl]
  have level : ((extractConfluenceAcl page).accessLevel = "public" ∨
      (extractConfluenceAcl page).accessLevel = "internal") ∧
      (extractConfluenceAcl page).accessLevel ∈ roleAllowedLevels user ↔
        page.restrictions = [] ∧ (page.sensitive = true → "internal" ∈ roleAllowedLevels user) := by
    by_cases restricted : page.restrictions = []
    · cases sensitive : page.sensitive with
      | true => simp [extractConfluenceAcl, restricted, sensitive]
      | false => simp [extractConfluenceAcl, restricted, sensitive, everyone]
    · simp [extractConfluenceAcl, restricted]
  simp only [DocumentAcl.Admits, ConfluencePage.OpenTo, mem_confluence_groups, named, level]

/-- An issue without a security level, or one of the user's department. -/
def JiraIssue.OpenTo (issue : JiraIssue) (user : UserContext) : Prop :=
  issue.securityLevel = none ∨
    ∃ group ∈ user.groups, group ≠ "" ∧ mapDepartmentFromProject issue.projectKey = group

theorem jira_admits_iff {issue : JiraIssue} :
    (extractJiraAcl issue).Admits user ↔ issue.OpenTo user := by
  have everyone := AccessControl.public_mem_roleAllowedLevels user
  have groups : ∀ group, group ∈ (extractJiraAcl issue).allowedGroups ↔
      group ≠ "" ∧ mapDepartmentFromProject issue.projectKey = group := by
    intro group
    simp only [extractJiraAcl]
    split
    · grind
    · rw [List.mem_singleton]
      grind
  have users : (extractJiraAcl issue).allowedUsers = [] := rfl
  simp only [DocumentAcl.Admits, JiraIssue.OpenTo, groups, users, List.not_mem_nil, false_or]
  cases secured : issue.securityLevel with
  | none => simp [extractJiraAcl, secured, everyone]
  | some level => simp [extractJiraAcl, secured]

/-- A private project admits its members, an internal one the roles that reach the internal level,
any other one everyone. -/
def GitlabProject.OpenTo (project : GitlabProject) (user : UserContext) : Prop :=
  let visibility := project.visibility.getD "internal"
  if visibility = "private" then
    ∃ member ∈ project.members,
      if member.isGroup then member.groupName ∈ user.groups else member.userName = user.username
  else visibility = "internal" → "internal" ∈ roleAllowedLevels user

theorem gitlab_admits_iff {project : GitlabProject} :
    (extractGitlabAcl project []).Admits user ↔ project.OpenTo user := by
  have everyone := AccessControl.public_mem_roleAllowedLevels user
  have listed : orElse [] [] project.members = project.members := rfl
  unfold DocumentAcl.Admits GitlabProject.OpenTo extractGitlabAcl
  simp only [listed]
  by_cases hidden : project.visibility.getD "internal" = "private"
  · simp only [hidden, if_true, List.mem_eraseDups, List.mem_map, List.mem_filter]
    constructor
    · intro given
      rcases given with ⟨level, -⟩ | ⟨member, ⟨inside, person⟩, name⟩ | ⟨group, own, member, ⟨inside, team⟩, name⟩
      · simp at level
      · have person : member.isGroup = false := by simpa using person
        exact ⟨member, inside, by simpa [person] using name⟩
      · exact ⟨member, inside, by simpa [team, name] using own⟩
    · intro given
      rcases given with ⟨member, inside, admitted⟩
      cases team : member.isGroup with
      | true =>
          have own : member.groupName ∈ user.groups := by simpa [team] using admitted
          exact Or.inr (Or.inr ⟨_, own, member, ⟨inside, team⟩, rfl⟩)
      | false =>
          have own : member.userName = user.username := by simpa [team] using admitted
          exact Or.inr (Or.inl ⟨member, ⟨inside, by simp [team]⟩, own⟩)
  · by_cases internal : project.visibility.getD "internal" = "internal"
    · simp [internal]
    · simp [hidden, internal, everyone]

end Admitted

end RagSystem.Etl
