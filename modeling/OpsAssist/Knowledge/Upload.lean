/-
# OpsAssist.Knowledge.Upload -- what an upload may be, and what is stored of it

The uploader's department and the classification come from their permissions; what a file
says about itself is compared with them and replaced.
-/
import OpsAssist.Auth
import OpsAssist.Host
import OpsAssist.Knowledge.Content

namespace OpsAssist.Upload

set_option autoImplicit false

open Theory

/-- What the program takes from Unicode. -/
structure Unicode where
  /-- `raw.decode("utf-8", errors="ignore")` -/
  decode : List UInt8 → String
  /-- `\w` -/
  isWord : Char → Bool
  /-- a letter matches another when case is ignored -/
  sameLetter : Char → Char → Bool
  /-- `unicodedata.normalize("NFKC", text)` -/
  nfkc : List Char → List Char

def MAX_UPLOAD_BYTES : Nat := 5 * 1024 * 1024

def SUPPORTED_SUFFIXES : List String := [".md", ".markdown", ".txt", ".pdf"]

def PUBLISH_PERMISSION : String := "kb:publish:public"

/-! ## Permissions -/

/-- `[a-z][a-z_]*` -/
def isSlug : List Char → Bool
  | [] => false
  | c :: rest => c.isLower && rest.all fun d => d.isLower || d == '_'

/-- `WRITE_PERMISSION`: its `$` also matches before a last line feed. -/
def writeDepartment (permission : String) : Option String :=
  let opening := "kb:write:".toList
  if opening.isPrefixOf permission.toList then
    let rest := permission.toList.drop opening.length
    let slug := if rest.getLast? = some '\n' then rest.dropLast else rest
    if isSlug slug then some (String.ofList slug) else none
  else none

/-- `writable_departments`, a set. -/
def writableDepartments (principal : Principal) : List String :=
  (principal.permissions.filterMap writeDepartment).eraseDups

/-- The message of an upload that is not allowed or not acceptable. -/
abbrev Rejected := String

def chooseClassification (host : Host) (principal : Principal) (department : String)
    (requested : Option String) : Except Rejected Classification :=
  if requested = none ∨ requested = some "internal" then .ok .internal
  else if requested = some "confidential" then
    if principal.has (department ++ ":confidential") then .ok .confidential
    else .error ("marking a document confidential requires the " ++ department ++
      ":confidential permission")
  else if requested = some "public" then
    if principal.has PUBLISH_PERMISSION then .ok .public_
    else .error "publishing a company-wide (public) document requires a publish permission"
  else .error ("unknown classification " ++ host.repr (requested.getD ""))

/-! ## File names -/

/-- `Path(filename).name`: the last part that is neither empty nor a dot. -/
def baseName (filename : List Char) : List Char :=
  ((Text.splitOn '/' filename).filter fun part => part ≠ [] ∧ part ≠ ['.']).getLast?.getD []

/-- Where the suffix of a name starts: at its last dot, unless that is its first or its last
character. -/
def suffixAt (name : List Char) : Option Nat :=
  let after := (name.reverse.takeWhile fun c => c ≠ '.').length
  if after < name.length ∧ 0 < after ∧ after + 1 < name.length then
    some (name.length - after - 1)
  else none

/-- `Path(filename).suffix` -/
def pathSuffix (filename : List Char) : List Char :=
  let name := baseName filename
  match suffixAt name with
  | some i => name.drop i
  | none => []

/-- `Path(filename).stem` -/
def pathStem (filename : List Char) : List Char :=
  let name := baseName filename
  match suffixAt name with
  | some i => name.take i
  | none => name

def safeSuffix (host : Host) (filename : String) : Except Rejected String :=
  let suffix := String.ofList (host.lower (pathSuffix filename.toList))
  if SUPPORTED_SUFFIXES.contains suffix then .ok suffix
  else .error ("unsupported file type " ++ if suffix = "" then "(none)" else suffix)

/-- `upload_kind` is `"markdown"`. -/
def isMarkdown (suffix : String) : Bool := suffix == ".md" || suffix == ".markdown"

/-! ## Secrets -/

section Secrets

variable (u : Unicode)

/-- A pattern matches somewhere; it sees the character before and the text from there on. -/
def search (matches_ : Option Char → List Char → Bool) : Option Char → List Char → Bool
  | before, [] => matches_ before []
  | before, c :: rest => matches_ before (c :: rest) || search matches_ (some c) rest

/-- `\b` -/
def atBoundary (before : Option Char) (rest : List Char) : Bool :=
  before.any u.isWord != rest.head?.any u.isWord

def isTokenChar (c : Char) : Bool := c.isAlphanum || c == '_' || c == '-'

def apiToken (before : Option Char) (rest : List Char) : Bool :=
  atBoundary u before rest &&
    ["sk-ant", "sk-", "nvapi-", "ghp_", "xoxb-"].any fun p =>
      p.toList.isPrefixOf rest && 16 ≤ ((rest.drop p.length).takeWhile isTokenChar).length

/-- The text goes on with characters of a class and then meets the condition. -/
def afterRun (p : Char → Bool) (goal : List Char → Bool) : List Char → Bool
  | [] => goal []
  | c :: rest => goal (c :: rest) || p c && afterRun p goal rest

def privateKey (rest : List Char) : Bool :=
  let opening := "-----BEGIN ".toList
  opening.isPrefixOf rest &&
    afterRun (fun c => c.isUpper || c == ' ') ("PRIVATE KEY-----".toList.isPrefixOf ·)
      (rest.drop opening.length)

/-- The text begins with a word, whatever the case. -/
def beginsWith (word : List Char) (rest : List Char) : Bool :=
  word.length ≤ rest.length && (word.zip rest).all fun (c, d) => u.sameLetter c d

def assignedSecret (before : Option Char) (rest : List Char) : Bool :=
  atBoundary u before rest &&
    ["password", "passwd", "secret", "apikey", "api_key", "api-key"].any fun word =>
      beginsWith u word.toList rest &&
        match (rest.drop word.length).dropWhile Text.isSpace with
        | c :: value => (c == ':' || c == '=') &&
            6 ≤ ((value.dropWhile Text.isSpace).takeWhile fun c => !Text.isSpace c).length
        | [] => false

def accessKey (before : Option Char) (rest : List Char) : Bool :=
  let key := (rest.drop 4).take 16
  atBoundary u before rest && "AKIA".toList.isPrefixOf rest && key.length == 16 &&
    key.all (fun c => c.isDigit || c.isUpper) && atBoundary u key.getLast? (rest.drop 20)

/-- `SECRET_PATTERNS` -/
def containsSecret (text : List Char) : Bool :=
  search (apiToken u) none text || search (fun _ => privateKey) none text ||
    search (assignedSecret u) none text || search (accessKey u) none text

def scanForSecrets (text : String) : Except Rejected Unit :=
  if containsSecret u text.toList then
    .error "the file appears to contain a credential; remove it before uploading"
  else .ok ()

end Secrets

/-! ## What a file says about itself -/

/-- `FRONT_MATTER`: the lines between the first two rules, and what follows. -/
def frontMatter (text : List Char) : Option (List Char × List Char) :=
  let rule := "---\n".toList
  if rule.isPrefixOf text then Text.cut "\n---\n".toList (text.drop rule.length) else none

/-- `strip().strip('"')` -/
def unquoted (value : List Char) : List Char := Text.stripOf (· == '"') (Text.strip value)

/-- `claims[key] = value` for every line with a colon: the last one of a key counts. -/
def claimedMetadata (text : List Char) : List (List Char × List Char) :=
  match frontMatter text with
  | none => []
  | some (lines, _) => (Text.splitlines lines).filterMap fun line =>
      match Text.partition ':' line with
      | (key, some value) => some (Text.strip key, unquoted value)
      | (_, none) => none

/-- `claims.get(key)`, unless it is empty. -/
def claimed (claims : List (List Char × List Char)) (key : String) : Option String :=
  match claims.reverse.find? fun c => c.1 = key.toList with
  | some (_, value) => if value = [] then none else some (String.ofList value)
  | none => none

def checkClassification (host : Host) (stored : String) : Option String → Except Rejected Unit
  | some c =>
      if c ≠ stored then
        .error ("the file declares classification " ++ host.repr c ++ "; it is being stored as " ++
          host.repr stored ++ ". Remove the field or request that classification explicitly.")
      else .ok ()
  | none => .ok ()

def checkClaims (host : Host) (claims : List (List Char × List Char)) (department : String)
    (classification : Classification) : Except Rejected Unit := do
  match claimed claims "department" with
  | some d =>
      if d ≠ department then
        throw ("the file declares department " ++ host.repr d ++ " but you may only write to " ++
          host.repr department)
  | none => pure ()
  checkClassification host (Ingest.classificationText classification)
    (claimed claims "classification")

/-! ## What is stored -/

/-- `next_doc_key`, of the keys its query sees. -/
def nextDocKey (host : Host) (visible : List String) (department : String) : String :=
  let opening := "KB-".toList ++ host.upper (department.toList.take 3)
  let used := visible.filter fun k => Text.like (opening ++ "-%".toList) k.toList
  let numbers := used.filterMap fun k =>
    let digits := (k.toList.reverse.takeWhile fun c => c ≠ '-').reverse
    if digits ≠ [] ∧ digits.all Char.isDigit then some (Numeral.value digits) else none
  let last := if numbers = [] then 100 else numbers.foldl max 0
  String.ofList (opening ++ '-' :: Numeral.zeroPad 3 (last + 1))

structure UploadPlan where
  docKey : String
  department : String
  classification : Classification
  title : String
  path : String
deriving DecidableEq

/-- The lines the server writes, one for each field. -/
def frontMatterLines (plan : UploadPlan) (principal : Principal) (today : String) :
    List (List Char) :=
  ["document_id: ".toList ++ plan.docKey.toList,
    "title: ".toList ++ plan.title.toList,
    "department: ".toList ++ plan.department.toList,
    "classification: ".toList ++ (Ingest.classificationText plan.classification).toList,
    "updated_at: ".toList ++ today.toList,
    "source: uploaded by ".toList ++ principal.userId.toList]

/-- `render_markdown`: the server's front matter replaces anything the file claimed. -/
def renderMarkdown (plan : UploadPlan) (body : String) (principal : Principal) (today : String) :
    String :=
  let text := ((frontMatter body.toList).map Prod.snd).getD body.toList
  String.ofList ("---\n".toList ++
    (frontMatterLines plan principal today).flatMap (fun line => line ++ ['\n']) ++
    "---\n\n".toList ++ text.dropWhile Text.isSpace ++ ['\n'])

/-- `sidecar_metadata` -/
def sidecarMetadata (plan : UploadPlan) (principal : Principal) (today : String) :
    List (String × String) :=
  [("document_id", plan.docKey),
    ("title", plan.title),
    ("department", plan.department),
    ("classification", Ingest.classificationText plan.classification),
    ("updated_at", today),
    ("source", "uploaded by " ++ principal.userId)]

end OpsAssist.Upload
