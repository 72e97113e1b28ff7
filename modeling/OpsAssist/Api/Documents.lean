/-
# OpsAssist.Api.Documents -- uploading a document, step by step over four stores

An upload writes a file, inserts a job, sends a message and appends an audit record, one after
another and each on its own.  Any one of these steps may fail, with or without having taken
effect.  `upload_all_or_nothing_iff` says after which failures the stores are left as they were;
`unaudited_message` is one after which they are not.
-/
import OpsAssist.Knowledge.Upload
import OpsAssist.Policy.Audit

namespace OpsAssist.Upload

set_option autoImplicit false

open Theory

/-! ## The stores -/

inductive FileContent where
  | text (s : String)
  | bytes (raw : List UInt8)
  /-- a JSON object of texts -/
  | json (fields : List (String × String))
deriving DecidableEq

inductive JobStatus where
  | queued
  | running
  | succeeded
  | unchanged
  | failed
  | dead
deriving DecidableEq

/-- The attempts, the result and the detail of a job are left out: nothing is uploaded by them. -/
structure IngestionJob where
  id : Uuid
  sourcePath : String
  status : JobStatus
deriving DecidableEq

/-- What is stored, newest first; the newest entry of a path is what its file holds. -/
structure Stores where
  files : List (String × FileContent) := []
  jobs : List IngestionJob := []
  /-- the messages in flight: a job and its path -/
  queue : List (Uuid × String) := []
  audit : List AuditEntry := []

inductive UploadStep where
  | denial
  | keyQuery
  | directory
  | file
  | sidecar
  | job
  | message
  | audit
deriving DecidableEq

/-- A step that fails, and whether it has taken effect before. -/
structure Fault where
  step : UploadStep
  effect : Bool

/-- A computation over the stores; without a result it has raised, and the stores keep what was
done until then. -/
def Effect (α : Type) : Type := Stores → Option α × Stores

instance : Monad Effect where
  pure a := fun s => (some a, s)
  bind x f := fun s =>
    match x s with
    | (some a, s') => f a s'
    | (none, s') => (none, s')

/-- One step on the stores. -/
def perform (fault : Option Fault) (step : UploadStep) (change : Stores → Stores) : Effect Unit :=
  fun s =>
    match fault with
    | some f =>
        if f.step = step then (none, if f.effect then change s else s) else (some (), change s)
    | none => (some (), change s)

/-! ## The request -/

structure UploadFile where
  filename : Option String
  body : List UInt8

structure UploadRequest where
  principal : Principal
  requestId : String
  file : UploadFile
  title : Option String := none
  classification : Option String := none

/-- What a request meets: the keys its query sees, the day, and the identifier of its job. -/
structure Env where
  host : Host
  unicode : Unicode
  /-- `settings.knowledge_root.parent.parent`, with the separator that follows it -/
  installRoot : String
  /-- `settings.knowledge_root`, from there -/
  knowledgeRoot : String
  visibleKeys : List String
  today : String
  jobId : Uuid

structure Denial where
  status : Nat
  code : String
  message : String
deriving DecidableEq

/-- A request that has passed every check. -/
structure Vetted where
  department : String
  classification : Classification
  suffix : String
  text : String

structure UploadResponse where
  docKey : String
  department : String
  classification : Classification
  title : String
  jobId : Uuid
  storedAs : String
  requestId : String
deriving DecidableEq

inductive Response where
  | accepted (response : UploadResponse)
  | denied (denial : Denial) (requestId : String)
deriving DecidableEq

/-- An exception of a check, as the response it becomes. -/
def rejected {α : Type} (status : Nat) : Except Rejected α → Except Denial α
  | .ok a => .ok a
  | .error message => .error ⟨status, "upload_rejected", message⟩

section

variable (env : Env) (fault : Option Fault) (req : UploadRequest)

/-- The checks of `upload_document`, in their order. -/
def vet : Except Denial Vetted := do
  let department ←
    match writableDepartments req.principal with
    | [] => throw ⟨403, "forbidden", "you have no kb:write permission for any department"⟩
    | [department] => pure department
    | _ => throw ⟨400, "ambiguous_department", "your permissions span several departments"⟩
  let status := if (req.classification.getD "") ≠ "" then 403 else 400
  let suffix ← rejected status (safeSuffix env.host (req.file.filename.getD ""))
  let chosen ← rejected status
    (chooseClassification env.host req.principal department req.classification)
  let raw := req.file.body.take (MAX_UPLOAD_BYTES + 1)
  if MAX_UPLOAD_BYTES < raw.length then
    throw ⟨413, "too_large", "files are limited to " ++ toString MAX_UPLOAD_BYTES ++ " bytes"⟩
  if raw = [] then
    throw ⟨400, "empty_file", "the uploaded file is empty"⟩
  let text := if suffix ≠ ".pdf" then env.unicode.decode raw else ""
  if text ≠ "" then
    rejected 400 (scanForSecrets env.unicode text)
    rejected 400 (checkClaims env.host (claimedMetadata text.toList) department chosen)
  pure { department, classification := chosen, suffix, text }

/-- The title, or the name of the file; a `title` or `filename` that is empty does not count. -/
def titleOf (docKey : String) : String :=
  let filename := match req.file.filename with
    | some name => if name = "" then docKey else name
    | none => docKey
  let title := match req.title with
    | some title => if title = "" then String.ofList (pathStem filename.toList) else title
    | none => String.ofList (pathStem filename.toList)
  String.ofList (title.toList.take 200)

def docKeyOf (v : Vetted) : String := nextDocKey env.host env.visibleKeys v.department

/-- The path of the stored file, from the root of the installation. -/
def storedAs (v : Vetted) : String :=
  env.knowledgeRoot ++ "/uploads/" ++ docKeyOf env v ++ v.suffix

def planOf (v : Vetted) : UploadPlan :=
  let docKey := docKeyOf env v
  { docKey
    department := v.department
    classification := v.classification
    title := titleOf req docKey
    path := env.installRoot ++ storedAs env v }

def sidecarPath (plan : UploadPlan) : String := plan.path ++ ".meta.json"

/-- The document's own file. -/
def mainFile (v : Vetted) : String × FileContent :=
  let plan := planOf env req v
  (plan.path, if isMarkdown v.suffix then
      .text (renderMarkdown plan v.text req.principal env.today)
    else .bytes req.file.body)

/-- The metadata of a file that carries none. -/
def sidecarFile (v : Vetted) : String × FileContent :=
  let plan := planOf env req v
  (sidecarPath plan, .json (sidecarMetadata plan req.principal env.today))

/-- The files of a stored document, newest first. -/
def storedFiles (v : Vetted) : List (String × FileContent) :=
  if isMarkdown v.suffix then [mainFile env req v]
  else [sidecarFile env req v, mainFile env req v]

def denyEntry (d : Denial) : AuditEntry where
  requestId := req.requestId
  actorId := req.principal.userId
  actorRole := req.principal.role
  event := "upload"
  decision := .deny
  reason := some d.message
  arguments := .obj [("filename", optionalValue req.file.filename),
    ("classification", optionalValue req.classification)]

def allowEntry (v : Vetted) : AuditEntry where
  requestId := req.requestId
  actorId := req.principal.userId
  actorRole := req.principal.role
  event := "upload"
  decision := .allow
  reason := some ("queued for indexing as " ++ (planOf env req v).docKey)
  arguments := .obj [("filename", optionalValue req.file.filename),
    ("department", .str v.department),
    ("classification", .str (Ingest.classificationText v.classification)),
    ("bytes", .num (.int req.file.body.length))]
  result := .obj [("doc_key", .str (planOf env req v).docKey), ("job_id", .str env.jobId.text)]

def jobOf (v : Vetted) : IngestionJob := ⟨env.jobId, (planOf env req v).path, .queued⟩

def responseOf (v : Vetted) : UploadResponse where
  docKey := (planOf env req v).docKey
  department := v.department
  classification := v.classification
  title := (planOf env req v).title
  jobId := env.jobId
  storedAs := storedAs env v
  requestId := req.requestId

/-- `deny` -/
def deny (d : Denial) : Effect Response := do
  perform fault .denial fun s => { s with audit := denyEntry req d :: s.audit }
  pure (.denied d req.requestId)

def storeFiles (v : Vetted) : Effect Unit := do
  perform fault .directory id
  perform fault .file fun s => { s with files := mainFile env req v :: s.files }
  if isMarkdown v.suffix then pure ()
  else perform fault .sidecar fun s => { s with files := sidecarFile env req v :: s.files }

/-- `enqueue_ingestion` -/
def enqueueIngestion (v : Vetted) : Effect Unit := do
  perform fault .job fun s => { s with jobs := jobOf env req v :: s.jobs }
  perform fault .message fun s =>
    { s with queue := (env.jobId, (planOf env req v).path) :: s.queue }

/-- `upload_document` -/
def uploadDocument : Effect Response :=
  match vet env req with
  | .error d => deny fault req d
  | .ok v => do
      perform fault .keyQuery id
      storeFiles env fault req v
      enqueueIngestion env fault req v
      perform fault .audit fun s => { s with audit := allowEntry env req v :: s.audit }
      pure (.accepted (responseOf env req v))

end

/-! ## What an upload leaves -/

variable {env : Env} {fault : Option Fault} {req : UploadRequest} {v : Vetted}

/-- The entry records that this upload was allowed, for this job. -/
def Allows (req : UploadRequest) (jobId : Uuid) (entry : AuditEntry) : Prop :=
  entry.event = "upload" ∧ entry.decision = .allow ∧ entry.requestId = req.requestId ∧
    ∃ docKey, entry.result = .obj [("doc_key", .str docKey), ("job_id", .str jobId.text)]

/-- One stored document, one queued job with its message in flight, and one record. -/
structure Accepted (env : Env) (req : UploadRequest) (before after : Stores) : Prop where
  stored : ∃ v, vet env req = .ok v ∧
    after.files = storedFiles env req v ++ before.files ∧
    after.jobs = jobOf env req v :: before.jobs ∧
    after.queue = (env.jobId, (planOf env req v).path) :: before.queue
  recorded : ∃ entry, Allows req env.jobId entry ∧ after.audit = entry :: before.audit

/-- No file, no job and no message is left. -/
structure Untouched (before after : Stores) : Prop where
  files : after.files = before.files
  jobs : after.jobs = before.jobs
  queue : after.queue = before.queue

/-- **An upload is all or nothing, and audited.** -/
structure AllOrNothing (env : Env) (req : UploadRequest) (before : Stores)
    (outcome : Option Response × Stores) : Prop where
  accepted : ∀ r, outcome.1 = some (.accepted r) → Accepted env req before outcome.2
  refused : (∀ r, outcome.1 ≠ some (.accepted r)) → Untouched before outcome.2
  /-- what a worker may index has its record -/
  audited : ∀ m ∈ outcome.2.queue, m ∈ before.queue ∨
    ∃ entry ∈ outcome.2.audit, Allows req m.1 entry

/-- The step fails once something is stored, or it is the one that stores it. -/
def Fault.late (f : Fault) (markdown : Bool) : Bool :=
  match f.step with
  | .denial | .keyQuery | .directory => false
  | .file => f.effect
  | .sidecar => !markdown
  | .job | .message | .audit => true

/-- The request passes its checks, and a step fails when something is stored already. -/
def LateFailure (env : Env) (fault : Option Fault) (req : UploadRequest) : Prop :=
  ∃ v f, vet env req = .ok v ∧ fault = some f ∧ f.late (isMarkdown v.suffix) = true

theorem allows_allowEntry (env : Env) (req : UploadRequest) (v : Vetted) :
    Allows req env.jobId (allowEntry env req v) :=
  ⟨rfl, rfl, rfl, _, rfl⟩

/-- Stores an upload leaves as they were keep every promise. -/
theorem allOrNothing_untouched {before after : Stores} {result : Option Response}
    (none : ∀ r, result ≠ some (.accepted r)) (untouched : Untouched before after) :
    AllOrNothing env req before (result, after) where
  accepted r is := absurd is (none r)
  refused _ := untouched
  audited m mem := by
    rw [untouched.queue] at mem
    exact .inl mem

/-- What an upload whose steps all succeed leaves. -/
def completed (env : Env) (req : UploadRequest) (v : Vetted) (s : Stores) : Stores where
  files := storedFiles env req v ++ s.files
  jobs := jobOf env req v :: s.jobs
  queue := (env.jobId, (planOf env req v).path) :: s.queue
  audit := allowEntry env req v :: s.audit

theorem allOrNothing_completed (vetted : vet env req = .ok v) (s : Stores) :
    AllOrNothing env req s (some (.accepted (responseOf env req v)), completed env req v s) where
  accepted r _ := ⟨⟨v, vetted, rfl, rfl, rfl⟩, _, allows_allowEntry env req v, rfl⟩
  refused none := absurd rfl (none _)
  audited m mem := by
    cases mem with
    | head => exact .inr ⟨_, List.mem_cons_self, allows_allowEntry env req v⟩
    | tail _ old => exact .inl old

theorem bind_apply {α β : Type} (x : Effect α) (f : α → Effect β) (s : Stores) :
    (x >>= f) s = match x s with
      | (some a, s') => f a s'
      | (none, s') => (none, s') := rfl

theorem pure_apply {α : Type} (a : α) (s : Stores) : (pure a : Effect α) s = (some a, s) := rfl

/-- A step that no fault strikes. -/
theorem perform_passes {step : UploadStep} (change : Stores → Stores) (s : Stores)
    (other : ∀ f ∈ fault, f.step ≠ step) : perform fault step change s = (some (), change s) := by
  unfold perform
  cases fault with
  | none => rfl
  | some f =>
      dsimp only
      rw [if_neg (other f rfl)]

theorem perform_fails {f : Fault} {step : UploadStep} (change : Stores → Stores) (s : Stores)
    (struck : f.step = step) :
    perform (some f) step change s = (none, if f.effect then change s else s) := by
  unfold perform
  dsimp only
  rw [if_pos struck]

/-- The step belongs to an upload that is stored as this kind. -/
def UploadStep.taken (step : UploadStep) (markdown : Bool) : Bool :=
  match step with
  | .denial => false
  | .sidecar => !markdown
  | _ => true

theorem deny_untouched (fault : Option Fault) (req : UploadRequest) (d : Denial) (s : Stores) :
    (∀ r, (deny fault req d s).1 ≠ some (.accepted r)) ∧ Untouched s (deny fault req d s).2 := by
  unfold deny
  rw [bind_apply]
  by_cases struck : ∃ f, fault = some f ∧ f.step = .denial
  · obtain ⟨f, rfl, is⟩ := struck
    rw [perform_fails _ _ is]
    refine ⟨nofun, ?_⟩
    show Untouched s (if f.effect = true then _ else s)
    split <;> exact ⟨rfl, rfl, rfl⟩
  · rw [perform_passes _ _ fun f mem is => struck ⟨f, mem, is⟩]
    refine ⟨?_, rfl, rfl, rfl⟩
    intro r same
    cases same

/-- No step the upload takes fails. -/
def Fault.Misses (fault : Option Fault) (markdown : Bool) : Prop :=
  ∀ f ∈ fault, f.step.taken markdown = false

theorem Fault.Misses.apart {markdown : Bool} (misses : Fault.Misses fault markdown)
    {step : UploadStep} (taken : step.taken markdown = true) : ∀ f ∈ fault, f.step ≠ step := by
  intro f mem same
  have not := misses f mem
  rw [same, taken] at not
  cases not

/-- The stores once the files are written. -/
def filed (env : Env) (req : UploadRequest) (v : Vetted) (s : Stores) : Stores :=
  { s with files := storedFiles env req v ++ s.files }

theorem storeFiles_passes (s : Stores)
    (root : ∀ f ∈ fault, f.step ≠ .directory) (main : ∀ f ∈ fault, f.step ≠ .file)
    (side : isMarkdown v.suffix = false → ∀ f ∈ fault, f.step ≠ .sidecar) :
    storeFiles env fault req v s = (some (), filed env req v s) := by
  unfold storeFiles filed storedFiles
  rw [bind_apply, perform_passes _ _ root]
  dsimp only
  rw [bind_apply, perform_passes _ _ main]
  dsimp only
  by_cases markdown : isMarkdown v.suffix = true
  · rw [if_pos markdown, if_pos markdown]
    rfl
  · rw [if_neg markdown, if_neg markdown]
    apply perform_passes
    apply side
    rwa [Bool.not_eq_true] at markdown

/-- **Without a fault in its steps an upload is complete.** -/
theorem upload_passes (vetted : vet env req = .ok v) (s : Stores)
    (misses : Fault.Misses fault (isMarkdown v.suffix)) :
    uploadDocument env fault req s =
      (some (.accepted (responseOf env req v)), completed env req v s) := by
  unfold uploadDocument
  rw [vetted]
  dsimp only
  rw [bind_apply, perform_passes _ _ (misses.apart rfl)]
  dsimp only
  have side : isMarkdown v.suffix = false → ∀ f ∈ fault, f.step ≠ .sidecar := by
    intro plain
    apply misses.apart
    rw [UploadStep.taken, plain]
    rfl
  rw [bind_apply, id, storeFiles_passes _ (misses.apart rfl) (misses.apart rfl) side]
  dsimp only
  unfold enqueueIngestion
  rw [bind_apply, bind_apply, perform_passes _ _ (misses.apart rfl)]
  dsimp only
  rw [perform_passes _ _ (misses.apart rfl)]
  dsimp only
  rw [bind_apply, perform_passes _ _ (misses.apart rfl)]
  rfl

/-! ## A step that fails -/

/-- A step that is not the one that fails. -/
theorem perform_other {f : Fault} {step : UploadStep} (change : Stores → Stores) (s : Stores)
    (other : f.step ≠ step) : perform (some f) step change s = (some (), change s) :=
  perform_passes change s fun g mem => by
    cases mem
    exact other

/-- An upload whose files are not all written has no further step. -/
theorem upload_unstored {f : Fault} {s s' : Stores} (vetted : vet env req = .ok v)
    (query : f.step ≠ .keyQuery) (fails : storeFiles env (some f) req v s = (none, s')) :
    uploadDocument env (some f) req s = (none, s') := by
  unfold uploadDocument
  rw [vetted]
  dsimp only
  rw [bind_apply, perform_other _ _ query]
  dsimp only
  rw [bind_apply, id, fails]

theorem storeFiles_no_directory {f : Fault} (s : Stores) (struck : f.step = .directory) :
    storeFiles env (some f) req v s = (none, s) := by
  unfold storeFiles
  rw [bind_apply, perform_fails _ _ struck]
  cases f.effect <;> rfl

theorem storeFiles_no_file {f : Fault} (s : Stores) (struck : f.step = .file) :
    storeFiles env (some f) req v s =
      (none, if f.effect then { s with files := mainFile env req v :: s.files } else s) := by
  have root : f.step ≠ .directory := by
    rw [struck]
    nofun
  unfold storeFiles
  rw [bind_apply, perform_other _ _ root]
  dsimp only
  rw [bind_apply, perform_fails _ _ struck]
  rfl

theorem storeFiles_no_sidecar {f : Fault} (s : Stores) (struck : f.step = .sidecar)
    (plain : isMarkdown v.suffix = false) :
    storeFiles env (some f) req v s =
      (none, if f.effect then
          { s with files := sidecarFile env req v :: mainFile env req v :: s.files }
        else { s with files := mainFile env req v :: s.files }) := by
  have root : f.step ≠ .directory := by
    rw [struck]
    nofun
  have main : f.step ≠ .file := by
    rw [struck]
    nofun
  unfold storeFiles
  rw [bind_apply, perform_other _ _ root]
  dsimp only
  rw [bind_apply, perform_other _ _ main]
  dsimp only
  rw [plain, if_neg Bool.false_ne_true, perform_fails _ _ struck]
  rfl

/-- A failure before anything is stored leaves the stores as they were. -/
theorem upload_stops {f : Fault} (vetted : vet env req = .ok v) (s : Stores)
    (taken : f.step.taken (isMarkdown v.suffix) = true)
    (early : f.late (isMarkdown v.suffix) = false) :
    uploadDocument env (some f) req s = (none, s) := by
  obtain ⟨step, effect⟩ := f
  cases step with
  | denial => cases taken
  | keyQuery =>
      unfold uploadDocument
      rw [vetted]
      dsimp only
      rw [bind_apply, perform_fails _ _ rfl]
      cases effect <;> rfl
  | directory => exact upload_unstored vetted nofun (storeFiles_no_directory s rfl)
  | file =>
      have created : effect = false := early
      have other : UploadStep.file ≠ .keyQuery := nofun
      rw [upload_unstored vetted other (storeFiles_no_file s rfl), created]
      rfl
  | sidecar =>
      have sidecar : (!isMarkdown v.suffix) = true := taken
      have none : (!isMarkdown v.suffix) = false := early
      rw [sidecar] at none
      cases none
  | job | message | audit => cases early

/-- A failure once the files are written leaves them there. -/
theorem upload_leaves_files {f : Fault} (vetted : vet env req = .ok v) (s : Stores)
    (after : f.step = .job ∨ f.step = .message ∨ f.step = .audit) :
    ∃ s', uploadDocument env (some f) req s = (none, s') ∧
      s'.files = storedFiles env req v ++ s.files := by
  have other : ∀ step : UploadStep, step ≠ .job → step ≠ .message → step ≠ .audit →
      ∀ g ∈ some f, g.step ≠ step := by
    rintro _ job message audit _ ⟨⟩ rfl
    rcases after with is | is | is
    · exact job is
    · exact message is
    · exact audit is
  unfold uploadDocument
  rw [vetted]
  dsimp only
  rw [bind_apply, perform_passes _ _ (other .keyQuery nofun nofun nofun)]
  dsimp only
  rw [bind_apply, id, storeFiles_passes _ (other .directory nofun nofun nofun)
    (other .file nofun nofun nofun) fun _ => other .sidecar nofun nofun nofun]
  dsimp only
  unfold enqueueIngestion
  rcases after with is | is | is
  · rw [bind_apply, bind_apply, perform_fails _ _ is]
    refine ⟨_, rfl, ?_⟩
    cases f.effect <;> rfl
  · have job : f.step ≠ .job := by
      rw [is]
      nofun
    rw [bind_apply, bind_apply, perform_other _ _ job]
    dsimp only
    rw [perform_fails _ _ is]
    refine ⟨_, rfl, ?_⟩
    cases f.effect <;> rfl
  · have job : f.step ≠ .job := by
      rw [is]
      nofun
    have message : f.step ≠ .message := by
      rw [is]
      nofun
    rw [bind_apply, bind_apply, perform_other _ _ job]
    dsimp only
    rw [perform_other _ _ message]
    dsimp only
    rw [bind_apply, perform_fails _ _ is]
    refine ⟨_, rfl, ?_⟩
    cases f.effect <;> rfl

/-- **A late failure raises, and a file stays behind.** -/
theorem upload_breaks {f : Fault} (vetted : vet env req = .ok v) (s : Stores)
    (late : f.late (isMarkdown v.suffix) = true) :
    ∃ s' left, uploadDocument env (some f) req s = (none, s') ∧ left ≠ [] ∧
      s'.files = left ++ s.files := by
  obtain ⟨step, effect⟩ := f
  have stored : storedFiles env req v ≠ [] := by
    unfold storedFiles
    split <;> nofun
  cases step with
  | denial | keyQuery | directory => cases late
  | file =>
      have created : effect = true := late
      refine ⟨_, [mainFile env req v], upload_unstored vetted nofun (storeFiles_no_file s rfl),
        nofun, ?_⟩
      rw [created]
      rfl
  | sidecar =>
      have plain : isMarkdown v.suffix = false := by
        have not : (!isMarkdown v.suffix) = true := late
        rwa [Bool.not_eq_true'] at not
      have fails : uploadDocument env (some ⟨.sidecar, effect⟩) req s = _ :=
        upload_unstored vetted nofun (storeFiles_no_sidecar s rfl plain)
      cases effect with
      | true => exact ⟨_, [_, _], fails, nofun, rfl⟩
      | false => exact ⟨_, [_], fails, nofun, rfl⟩
  | job =>
      obtain ⟨s', fails, left⟩ := upload_leaves_files (f := ⟨.job, effect⟩) vetted s (.inl rfl)
      exact ⟨s', _, fails, stored, left⟩
  | message =>
      obtain ⟨s', fails, left⟩ :=
        upload_leaves_files (f := ⟨.message, effect⟩) vetted s (.inr (.inl rfl))
      exact ⟨s', _, fails, stored, left⟩
  | audit =>
      obtain ⟨s', fails, left⟩ :=
        upload_leaves_files (f := ⟨.audit, effect⟩) vetted s (.inr (.inr rfl))
      exact ⟨s', _, fails, stored, left⟩

/-- What is added in front of a list shows. -/
theorem append_ne {α : Type} {added old : List α} (some : added ≠ []) : added ++ old ≠ old := by
  intro same
  apply some
  simpa using same

/-- **Whatever the stores hold, an upload is all or nothing and audited if and only if none of
its steps fails when something of it is stored already.** -/
theorem upload_all_or_nothing_iff (env : Env) (fault : Option Fault) (req : UploadRequest)
    (s : Stores) :
    AllOrNothing env req s (uploadDocument env fault req s) ↔ ¬LateFailure env fault req := by
  constructor
  · rintro all ⟨v, f, vetted, rfl, late⟩
    obtain ⟨s', left, fails, some, files⟩ := upload_breaks vetted s late
    rw [fails] at all
    have same := (all.refused nofun).files
    rw [files] at same
    exact append_ne some same
  · intro early
    cases vetted : vet env req with
    | error d =>
        have denied : uploadDocument env fault req = deny fault req d := by
          unfold uploadDocument
          rw [vetted]
        rw [denied]
        obtain ⟨refused, untouched⟩ := deny_untouched fault req d s
        exact allOrNothing_untouched refused untouched
    | ok v =>
        by_cases struck : ∃ f, fault = some f ∧ f.step.taken (isMarkdown v.suffix) = true
        · obtain ⟨f, rfl, taken⟩ := struck
          have before : f.late (isMarkdown v.suffix) = false := by
            rw [← Bool.not_eq_true]
            exact fun late => early ⟨v, f, vetted, rfl, late⟩
          rw [upload_stops vetted s taken before]
          exact allOrNothing_untouched nofun ⟨rfl, rfl, rfl⟩
        · have misses : Fault.Misses fault (isMarkdown v.suffix) := by
            intro f mem
            rw [← Bool.not_eq_true]
            exact fun taken => struck ⟨f, mem, taken⟩
          rw [upload_passes vetted s misses]
          exact allOrNothing_completed vetted s

/-! ## Poles -/

/-- ASCII. -/
def Unicode.plain : Unicode where
  decode raw := String.ofList (raw.map fun b => Char.ofNat b.toNat)
  isWord c := c.isAlphanum || c == '_'
  sameLetter c d := c.toLower == d.toLower
  nfkc := id

def plainEnv : Env where
  host := Host.plain
  unicode := Unicode.plain
  installRoot := ""
  knowledgeRoot := "sample_data/knowledge"
  visibleKeys := []
  today := "2026-09-01"
  jobId := 7

/-- A manager of one department stores a page. -/
def leavePage : UploadRequest where
  principal := ⟨"u-1", "Ada", "hr", "manager", ["kb:write:hr"]⟩
  requestId := "r-1"
  file := ⟨some "leave.md", [72, 105]⟩

/-- **The record cannot be appended: the request has failed, its file and its job are stored, the
message is in flight and nothing says who allowed it.** -/
theorem unaudited_message : ∃ after : Stores,
    uploadDocument plainEnv (some ⟨.audit, false⟩) leavePage {} = (none, after) ∧
      after.queue = [(plainEnv.jobId, "sample_data/knowledge/uploads/KB-HR-101.md")] ∧
      after.files.length = 1 ∧ after.jobs.length = 1 ∧ after.audit = [] ∧
      ¬AllOrNothing plainEnv leavePage {}
        (uploadDocument plainEnv (some ⟨.audit, false⟩) leavePage {}) := by
  let outcome := uploadDocument plainEnv (some ⟨.audit, false⟩) leavePage {}
  have failed : outcome.1 = none := by decide +kernel
  have sent : outcome.2.queue =
      [(plainEnv.jobId, "sample_data/knowledge/uploads/KB-HR-101.md")] := by
    decide +kernel
  have silent : outcome.2.audit = [] := List.isEmpty_iff.mp (by decide +kernel)
  refine ⟨outcome.2, Prod.ext failed rfl, sent, by decide +kernel, by decide +kernel, silent, ?_⟩
  intro all
  have inFlight : (plainEnv.jobId, "sample_data/knowledge/uploads/KB-HR-101.md") ∈
      outcome.2.queue := by
    rw [sent]
    exact List.mem_cons_self
  rcases all.audited _ inFlight with earlier | ⟨entry, mem, -⟩
  · cases earlier
  · change entry ∈ outcome.2.audit at mem
    rw [silent] at mem
    cases mem

/-- Without the fault the same request is recorded. -/
example : (uploadDocument plainEnv none leavePage {}).2.audit.map AuditEntry.decision =
    [.allow] := by
  decide +kernel

end OpsAssist.Upload
