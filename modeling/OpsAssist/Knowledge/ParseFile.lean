/-
# OpsAssist.Knowledge.ParseFile -- files to documents, or the exception that comes instead

`parse_file` reads a file and perhaps its sidecar, finds the metadata, validates it and builds
the blocks.  Decoding and `json.loads` raise their own exceptions, which the worker takes for
transient.  `file_settled_iff` says which contents of a text file give a document or a
`ParseError`: those whose files can be decoded and whose sidecar can be loaded.

Pole: `undecodable_retried`, a Markdown file of one byte.

PDF extraction, `json.loads`, `str` of a JSON value and the validation library's dates and
wording are parameters.
-/
import OpsAssist.Knowledge.BlockBuilder
import OpsAssist.Knowledge.DocKeys
import OpsAssist.Knowledge.PdfTables
import OpsAssist.Tools.Registry
import OpsAssist.Worker

namespace OpsAssist.Parsing

set_option autoImplicit false

open Theory Text Upload

/-! ## Exceptions -/

/-- The exceptions of the libraries that parsing does not catch. -/
inductive Escape where
  | unicodeDecodeError
  /-- a `ValueError`, `JSONDecodeError` among them -/
  | valueError (name : String)
  | recursionError
  /-- what the PDF library raises -/
  | pdf (name : String)
deriving DecidableEq

inductive Failure where
  | parseError (message : String)
  | escape (exc : Escape)
deriving DecidableEq

/-- Code outside the repository. -/
structure Library where
  /-- `json.loads` -/
  loads : String → Except Escape Value
  /-- `str` -/
  str : Value → Except Escape String
  /-- the date a text is validated to -/
  date : String → Except ErrorKind String
  /-- the text of a validation error -/
  report : List FieldError → String
  /-- `PdfReader(path).pages`: the layout text and the visual lines of each page -/
  pages : ByteArray → Except Escape (List (String × List PdfTables.VisualLine))

/-! ## Text -/

/-- `text.replace("\r\n", "\n").replace("\r", "\n")`; text files are read so, too. -/
def newlines : List Char → List Char
  | [] => []
  | c :: rest =>
      if c = '\r' then if rest.head? = some '\n' then newlines rest else '\n' :: newlines rest
      else c :: newlines rest

/-- `_CONTROL` -/
def isControl (c : Char) : Bool :=
  let n := c.toNat
  n ≤ 8 || n == 0xb || n == 0xc || (0xe ≤ n && n ≤ 0x1f) || n == 0x7f

/-- `_SPACES` matches runs of these. -/
def isGap (c : Char) : Bool := c == ' ' || c == '\t' || c.toNat == 0xa0

/-- `_SPACES.sub(" ", line)` -/
def squeeze : List Char → List Char
  | [] => []
  | c :: rest =>
      if isGap c then if rest.head?.any isGap then squeeze rest else ' ' :: squeeze rest
      else c :: squeeze rest

/-- What `normalize` makes of a line. -/
def tidy (line : List Char) : List Char := strip (squeeze line)

/-- The text before its lines are tidied. -/
def plainLines (u : Unicode) (text : List Char) : List Char :=
  (newlines (u.nfkc text)).filter fun c => !isControl c

def normalize (u : Unicode) (text : List Char) : List Char :=
  join '\n' ((splitOn '\n' (plainLines u text)).map tidy)

/-- `path.read_text(encoding="utf-8")` -/
def readText (bytes : ByteArray) : Except Failure (List Char) :=
  match String.fromUTF8? bytes with
  | some text => .ok (newlines text.toList)
  | none => .error (.escape .unicodeDecodeError)

/-! ## Metadata -/

section

variable (host : Host) (lib : Library)

/-- A line that says nothing: blank, or a comment. -/
def isComment (line : List Char) : Bool :=
  strip line = [] || (line.dropWhile isSpace).head? == some '#'

/-- One line of a front matter. -/
def metaLine (members : Members) (line : List Char) : Except Failure Members :=
  if isComment line then .ok members
  else
    match partition ':' line with
    | (key, some value) =>
        .ok (setMember (String.ofList (strip key)) (.str (String.ofList (unquoted value))) members)
    | (_, none) =>
        .error (.parseError ("malformed front matter line: " ++ host.repr (String.ofList line)))

/-- `_split_front_matter` -/
def splitFrontMatter (text : List Char) : Except Failure (Members × List Char) :=
  if "---\n".toList.isPrefixOf text then
    match cut "\n---".toList (text.drop 4) with
    | some (lines, body) => do
        let members ← (splitlines lines).foldlM (metaLine host) []
        return (members, body)
    | none => .error (.parseError "unterminated front matter")
  else .error (.parseError "markdown document is missing front matter")

/-- `str(k): str(v)`; the keys are texts. -/
def textMembers : Members → Except Failure Members
  | [] => .ok []
  | (key, v) :: rest =>
      match lib.str v with
      | .error exc => .error (.escape exc)
      | .ok text => (textMembers rest).map ((key, .str text) :: ·)

/-- `_sidecar` -/
def sidecar (name : String) (content : Option ByteArray) : Except Failure Members :=
  match content with
  | none => .error (.parseError (name ++ ": missing metadata sidecar " ++ name ++ ".meta.json"))
  | some bytes => do
      let text ← readText bytes
      match lib.loads (String.ofList text) with
      | .error exc => .error (.escape exc)
      | .ok (.obj members) => textMembers lib members
      | .ok _ => .error (.parseError (name ++ ".meta.json: metadata must be a JSON object"))

def classificationCheck : Value → Except ErrorKind Classification
  | .str "public" => .ok .public_
  | .str "internal" => .ok .internal
  | .str "confidential" => .ok .confidential
  | _ => .error (.literalError ["'public'", "'internal'", "'confidential'"])

def dateCheck : Value → Except ErrorKind String
  | .str s => lib.date s
  | _ => .error (.valueError "Input should be a valid date")

/-- `DocumentMeta.model_validate` -/
def validateMeta (members : Members) : Except (List FieldError) DocumentMeta := do
  let ((documentId, title), (department, classification), updatedAt, source) ←
    both
      (both
        (field members "document_id"
          { pattern := some ("^KB-[A-Z]+-[0-9]\x7b3\x7d$", isDocKey) : StringRule }.check)
        (field members "title" { min := some 1, max := some 300 : StringRule }.check))
      (both
        (both
          (field members "department"
            { pattern := some ("^[a-z][a-z_]*$", isSlug) : StringRule }.check)
          (field members "classification" classificationCheck))
        (both
          (field members "updated_at" (dateCheck lib))
          (field members "source" (optionalCheck ({} : StringRule).check) (some none))))
  return { documentId, title, department, classification, updatedAt, source }

end

/-! ## Files -/

/-- A file and its sidecar, if there is one. -/
structure Files where
  path : String
  bytes : ByteArray
  sidecar : Option ByteArray

def Files.name (files : Files) : String := String.ofList (baseName files.path.toList)

/-- What a file holds before its metadata is checked. -/
structure Extracted where
  members : Members
  blocks : List Block
  mimeType : String
  raw : List Char

section

variable (host : Host) (u : Unicode) (lib : Library)

/-- `path.suffix.lower()` -/
def Files.suffix (files : Files) : String :=
  String.ofList (host.lower (pathSuffix files.path.toList))

def lineTexts (text : List Char) : List String := (splitOn '\n' text).map String.ofList

/-- The lines of a PDF page, its tables rendered. -/
def pageLines (page : String × List PdfTables.VisualLine) : List (List Char) :=
  PdfTables.renderTables u.nfkc (splitOn '\n' (normalize u page.1.toList))
    (PdfTables.tableRows u.nfkc page.2)

def extract (files : Files) : Except Failure Extracted :=
  if isMarkdown (files.suffix host) then do
    let text ← readText files.bytes
    let (members, body) ← splitFrontMatter host (normalize u text)
    return { members, blocks := blocksFromLines (lineTexts body), mimeType := "text/markdown",
             raw := body }
  else if files.suffix host = ".txt" then do
    let members ← sidecar lib files.name files.sidecar
    let text ← readText files.bytes
    let raw := normalize u text
    return { members, blocks := blocksFromLines (lineTexts raw), mimeType := "text/plain", raw }
  else if files.suffix host = ".pdf" then do
    let members ← sidecar lib files.name files.sidecar
    match lib.pages files.bytes with
    | .error exc => .error (.escape exc)
    | .ok pages =>
        let lines := pages.map (pageLines u)
        let fed := lines.zipIdx 1 |>.map fun (page, number) =>
          (some number, page.map String.ofList)
        return { members, blocks := (BlockBuilder.feedPages .layout fed).blocks,
                 mimeType := "application/pdf",
                 raw := ['\n', '\n'].intercalate (lines.map (join '\n')) }
  else .error (.parseError ("unsupported file type " ++ host.repr (files.suffix host)))

/-- The metadata is validated, and there must be some text. -/
def finish (files : Files) (e : Extracted) : Except Failure ParsedDocument :=
  match validateMeta lib e.members with
  | .error errors =>
      .error (.parseError (files.name ++ ": invalid metadata: " ++ lib.report errors))
  | .ok metadata =>
      if e.blocks.any fun b => b.kind != .heading then
        .ok { metadata, blocks := e.blocks, mimeType := e.mimeType, sourcePath := files.path }
      else .error (.parseError (files.name ++ ": no text content extracted"))

/-- `parse_file` -/
def parseFile (files : Files) : Except Failure ParsedDocument :=
  (extract host u lib files).bind (finish lib files)

end

/-! ## Which exceptions escape -/

/-- The computation ends with an exception that is no `ParseError`. -/
def Escapes {α : Type} (r : Except Failure α) : Prop := ∃ exc, r = .error (.escape exc)

section

variable {α β : Type}

@[simp] theorem escapes_ok {a : α} : ¬Escapes (.ok a) := nofun

@[simp] theorem escapes_pure {a : α} : ¬Escapes (pure a) := nofun

@[simp] theorem escapes_parseError {message : String} :
    ¬Escapes (.error (.parseError message) : Except Failure α) := nofun

@[simp] theorem escapes_escape {exc : Escape} :
    Escapes (.error (.escape exc) : Except Failure α) := ⟨exc, rfl⟩

theorem escapes_bind {r : Except Failure α} {next : α → Except Failure β} :
    Escapes (r >>= next) ↔ Escapes r ∨ ∃ a, r = .ok a ∧ Escapes (next a) := by
  cases r with
  | error f => simp [Escapes, bind, Except.bind]
  | ok a => simp [Escapes, bind, Except.bind]

theorem escapes_map {r : Except Failure α} {f : α → β} : Escapes (r.map f) ↔ Escapes r := by
  cases r <;> simp [Escapes, Except.map]

end

variable {host : Host} {u : Unicode} {lib : Library}

/-- The bytes are UTF-8. -/
def Decodable (bytes : ByteArray) : Prop := ∃ text, String.fromUTF8? bytes = some text

theorem escapes_readText {bytes : ByteArray} : Escapes (readText bytes) ↔ ¬Decodable bytes := by
  unfold readText Decodable
  cases String.fromUTF8? bytes <;> simp

theorem readText_ok {bytes : ByteArray} {text : String} (decoded : String.fromUTF8? bytes = some text) :
    readText bytes = .ok (newlines text.toList) := by
  rw [readText, decoded]

/-- **No front matter escapes.** -/
theorem escapes_metaLine {members : Members} {line : List Char} :
    ¬Escapes (metaLine host members line) := by
  unfold metaLine
  by_cases comment : isComment line = true
  · simp [comment]
  · rw [if_neg comment]
    split <;> simp

theorem escapes_metaLines : ∀ {lines : List (List Char)} {members : Members},
    ¬Escapes (lines.foldlM (metaLine host) members)
  | [], _ => escapes_pure
  | line :: lines, members => by
      rw [List.foldlM_cons, escapes_bind]
      rintro (here | ⟨_, -, later⟩)
      · exact escapes_metaLine here
      · exact escapes_metaLines later

theorem escapes_splitFrontMatter {text : List Char} : ¬Escapes (splitFrontMatter host text) := by
  unfold splitFrontMatter
  split
  · split
    · rw [escapes_bind]
      rintro (here | ⟨_, -, later⟩)
      · exact escapes_metaLines here
      · exact escapes_pure later
    · simp
  · simp

theorem escapes_textMembers : ∀ {members : Members},
    Escapes (textMembers lib members) ↔ ¬∀ m ∈ members, ∃ t, lib.str m.2 = .ok t
  | [] => by simp [textMembers]
  | (key, v) :: rest => by
      rw [textMembers]
      cases told : lib.str v with
      | error exc => simp [told]
      | ok text =>
          simp only [escapes_map, escapes_textMembers, List.forall_mem_cons, told]
          simp

/-- The bytes are UTF-8 and `json.loads` gives a value; the members of an object have texts. -/
def LoadsTo (lib : Library) (bytes : ByteArray) (v : Value) : Prop :=
  ∃ text, String.fromUTF8? bytes = some text ∧
    lib.loads (String.ofList (newlines text.toList)) = .ok v ∧
    ∀ members, v = .obj members → ∀ m ∈ members, ∃ t, lib.str m.2 = .ok t

theorem escapes_sidecar {name : String} {content : Option ByteArray} :
    Escapes (sidecar lib name content) ↔
      ∃ bytes, content = some bytes ∧ ∀ v, ¬LoadsTo lib bytes v := by
  cases content with
  | none => simp [sidecar]
  | some bytes =>
      simp only [sidecar, escapes_bind, escapes_readText, Option.some.injEq, exists_eq_left']
      cases decoded : String.fromUTF8? bytes with
      | none => simp [Decodable, LoadsTo, decoded]
      | some text =>
          simp only [readText_ok decoded, Decodable, LoadsTo, decoded, Option.some.injEq,
            exists_eq', not_true_eq_false, false_or, Except.ok.injEq, exists_eq_left']
          cases loaded : lib.loads (String.ofList (newlines text.toList)) with
          | error exc => simp
          | ok v => cases v <;> simp [escapes_textMembers]

theorem LoadsTo.unique {bytes : ByteArray} {v w : Value} (left : LoadsTo lib bytes v)
    (right : LoadsTo lib bytes w) : v = w := by
  obtain ⟨text, decoded, loaded, -⟩ := left
  obtain ⟨text', decoded', loaded', -⟩ := right
  cases decoded.symm.trans decoded'
  exact Except.ok.inj (loaded.symm.trans loaded')

theorem textMembers_ok : ∀ {members : Members},
    (∃ told, textMembers lib members = .ok told) ↔ ∀ m ∈ members, ∃ t, lib.str m.2 = .ok t
  | [] => by simp [textMembers]
  | (key, v) :: rest => by
      rw [textMembers, List.forall_mem_cons, ← textMembers_ok]
      cases told : lib.str v with
      | error exc => simp
      | ok text => cases textMembers lib rest <;> simp [Except.map]

theorem sidecar_ok {name : String} {content : Option ByteArray} :
    (∃ members, sidecar lib name content = .ok members) ↔
      ∃ bytes members, content = some bytes ∧ LoadsTo lib bytes (.obj members) := by
  cases content with
  | none => simp [sidecar]
  | some bytes =>
      simp only [sidecar, Option.some.injEq, LoadsTo]
      cases decoded : String.fromUTF8? bytes with
      | none => simp [readText, decoded, bind, Except.bind]
      | some text =>
          simp only [readText_ok decoded, bind, Except.bind]
          cases loaded : lib.loads (String.ofList (newlines text.toList)) with
          | error exc => simp [decoded, loaded]
          | ok v => cases v <;> simp [decoded, loaded, textMembers_ok]

/-! ## Valid documents -/

/-- What `DocumentMeta` demands. -/
structure ValidMeta (lib : Library) (m : DocumentMeta) : Prop where
  documentId : isDocKey m.documentId.toList = true
  title : 1 ≤ m.title.toList.length ∧ m.title.toList.length ≤ 300
  department : isSlug m.department.toList = true
  updatedAt : ∃ text, lib.date text = .ok m.updatedAt

/-- A document that may be indexed. -/
structure Indexable (lib : Library) (doc : ParsedDocument) : Prop where
  metadata : ValidMeta lib doc.metadata
  text : ∃ b ∈ doc.blocks, b.kind ≠ .heading

theorem both_ok {α β : Type} {a : Except (List FieldError) α} {b : Except (List FieldError) β}
    {x : α} {y : β} : both a b = .ok (x, y) ↔ a = .ok x ∧ b = .ok y := by
  cases a <;> cases b <;> simp [both]

theorem field_ok {α : Type} {members : Members} {name : String}
    {check : Value → Except ErrorKind α} {a : α} (ok : field members name check = .ok a) :
    ∃ v, members.lookup name = some v ∧ check v = .ok a := by
  unfold field at ok
  cases there : members.lookup name with
  | none => simp [there] at ok
  | some v =>
      simp only [there] at ok
      cases checked : check v with
      | error kind => simp [checked] at ok
      | ok b =>
          simp only [checked, Except.ok.injEq] at ok
          exact ⟨v, rfl, by rw [checked, ok]⟩

theorem check_ok {rule : StringRule} {v : Value} {s : String} (ok : rule.check v = .ok s) :
    rule.min.getD 0 ≤ s.toList.length ∧ s.toList.length ≤ rule.max.getD s.toList.length ∧
      ∀ p, rule.pattern = some p → p.2 s.toList = true := by
  cases v with
  | str t =>
      simp only [StringRule.check] at ok
      by_cases short : t.toList.length < rule.min.getD 0
      · simp [short] at ok
      · by_cases long : rule.max.getD t.toList.length < t.toList.length
        · simp [short, long] at ok
        · rw [if_neg short, if_neg long] at ok
          cases there : rule.pattern with
          | none =>
              rw [there] at ok
              cases ok
              exact ⟨by omega, by omega, nofun⟩
          | some p =>
              obtain ⟨text, accepts⟩ := p
              simp only [there] at ok
              by_cases matched : accepts t.toList = true
              · rw [if_pos matched] at ok
                cases ok
                exact ⟨by omega, by omega, by rintro _ ⟨⟩; exact matched⟩
              · simp [matched] at ok
  | _ => simp [StringRule.check] at ok

theorem check_str {rule : StringRule} {v : Value} {s : String} (ok : rule.check v = .ok s) :
    v = .str s := by
  cases v with
  | str t =>
      simp only [StringRule.check] at ok
      split at ok
      · cases ok
      · split at ok
        · cases ok
        · split at ok
          · cases ok
            rfl
          · split at ok
            · cases ok
              rfl
            · cases ok
  | _ => simp [StringRule.check] at ok

theorem validMeta {members : Members} {m : DocumentMeta} (ok : validateMeta lib members = .ok m) :
    ValidMeta lib m := by
  unfold validateMeta at ok
  generalize made : both _ _ = parts at ok
  match parts, made, ok with
  | .ok ((documentId, title), (department, classification), updatedAt, source), made, ok =>
      cases ok
      obtain ⟨front, back⟩ := both_ok.mp made
      obtain ⟨id, titled⟩ := both_ok.mp front
      obtain ⟨owner, dated⟩ := both_ok.mp back
      obtain ⟨-, -, key⟩ := check_ok (field_ok id).choose_spec.2
      obtain ⟨short, long, -⟩ := check_ok (field_ok titled).choose_spec.2
      obtain ⟨-, -, slug⟩ := check_ok (field_ok (both_ok.mp owner).1).choose_spec.2
      obtain ⟨v, -, date⟩ := field_ok (both_ok.mp dated).1
      refine ⟨key _ rfl, ⟨short, long⟩, slug _ rfl, ?_⟩
      cases v with
      | str text => exact ⟨text, date⟩
      | _ => cases date

theorem finish_cases (files : Files) (e : Extracted) :
    (∃ doc, finish lib files e = .ok doc ∧ Indexable lib doc) ∨
      ∃ message, finish lib files e = .error (.parseError message) := by
  unfold finish
  cases validated : validateMeta lib e.members with
  | error errors => exact .inr ⟨_, rfl⟩
  | ok m =>
      by_cases some_text : (e.blocks.any fun b => b.kind != .heading) = true
      · simp only [if_pos some_text]
        exact .inl ⟨_, rfl, validMeta validated, by simpa using some_text⟩
      · simp only [if_neg some_text]
        exact .inr ⟨_, rfl⟩

/-! ## Settled files -/

/-- Parsing gives a document that may be indexed, or raises `ParseError`. -/
def Settled (host : Host) (u : Unicode) (lib : Library) (files : Files) : Prop :=
  (∃ doc, parseFile host u lib files = .ok doc ∧ Indexable lib doc) ∨
    ∃ message, parseFile host u lib files = .error (.parseError message)

/-- The files parsing reads can be decoded, and the sidecar of a text loaded. -/
def Readable (host : Host) (lib : Library) (files : Files) : Prop :=
  if isMarkdown (files.suffix host) then Decodable files.bytes
  else if files.suffix host = ".txt" then
    ∀ bytes, files.sidecar = some bytes → ∃ v, LoadsTo lib bytes v ∧
      ∀ members, v = .obj members → Decodable files.bytes
  else True

theorem settled_iff_extract (files : Files) :
    Settled host u lib files ↔ ¬Escapes (extract host u lib files) := by
  unfold Settled parseFile
  cases extracted : extract host u lib files with
  | error f => cases f <;> simp [Except.bind]
  | ok e => simpa [Except.bind] using finish_cases files e

theorem escapes_extract {files : Files} (text : files.suffix host ≠ ".pdf") :
    Escapes (extract host u lib files) ↔ ¬Readable host lib files := by
  unfold extract Readable
  by_cases markdown : isMarkdown (files.suffix host) = true
  · rw [if_pos markdown, if_pos markdown, escapes_bind, escapes_readText]
    refine or_iff_left ?_
    rintro ⟨_, -, later⟩
    rcases escapes_bind.mp later with here | ⟨_, -, last⟩
    · exact escapes_splitFrontMatter here
    · exact escapes_pure last
  · rw [if_neg markdown, if_neg markdown]
    by_cases plain : files.suffix host = ".txt"
    · rw [if_pos plain, if_pos plain, escapes_bind, escapes_sidecar]
      have later : ∀ members : Members, Escapes (do
          let text ← readText files.bytes
          return ({ members, blocks := blocksFromLines (lineTexts (normalize u text)),
                    mimeType := "text/plain", raw := normalize u text } : Extracted)) ↔
          ¬Decodable files.bytes := fun members => by
        rw [escapes_bind, escapes_readText]
        exact or_iff_left fun ⟨_, _, last⟩ => escapes_pure last
      simp only [later, exists_and_right, sidecar_ok]
      push Not
      constructor
      · rintro (⟨bytes, there, never⟩ | ⟨⟨bytes, members, there, loads⟩, undecodable⟩)
        · exact ⟨bytes, there, fun v loads => absurd loads (never v)⟩
        · exact ⟨bytes, there, fun v other => ⟨members, other.unique loads, undecodable⟩⟩
      · rintro ⟨bytes, there, never⟩
        by_cases loads : ∃ v, LoadsTo lib bytes v
        · obtain ⟨v, loads⟩ := loads
          obtain ⟨members, rfl, undecodable⟩ := never v loads
          exact .inr ⟨⟨bytes, members, there, loads⟩, undecodable⟩
        · exact .inl ⟨bytes, there, not_exists.mp loads⟩
    · simp [plain, text]

/-- `PERMANENT_ERRORS` has `ParseError`, and none of the exceptions that escape. -/
def Failure.severity : Failure → Worker.Severity
  | .parseError _ => .permanent
  | .escape _ => .transient

/-- A file that is not settled is tried again, with no better luck. -/
theorem unsettled_retried {files : Files} (unsettled : ¬Settled host u lib files) :
    ∃ f, parseFile host u lib files = .error f ∧ ∀ retries name text,
      retries < Worker.MAX_RETRIES →
        Worker.shouldRetry retries { severity := f.severity, name, text } = true := by
  rw [settled_iff_extract, not_not] at unsettled
  obtain ⟨exc, escaped⟩ := unsettled
  refine ⟨.escape exc, by rw [parseFile, escaped]; rfl, ?_⟩
  intro retries name text early
  simp [Worker.shouldRetry, Worker.Failure.permanent, Failure.severity, early]

/-- **Which text files are settled**: those whose files can be decoded and whose sidecar can be
loaded. -/
theorem file_settled_iff {files : Files} (text : files.suffix host ≠ ".pdf") :
    Settled host u lib files ↔ Readable host lib files := by
  rw [settled_iff_extract, escapes_extract text, not_not]

/-! ## Poles -/

/-- Libraries that load nothing but the word `null`. -/
def Library.plain : Library where
  loads text := if text = "null" then .ok .null else .error (.valueError "JSONDecodeError")
  str
    | .str s => .ok s
    | _ => .ok "None"
  date text := .ok text
  report _ := "1 validation error for DocumentMeta"
  pages _ := .ok []

def page (bytes : ByteArray) : Files where
  path := "sample_data/knowledge/uploads/KB-HR-101.md"
  bytes := bytes
  sidecar := none

theorem file_settled_pole : Settled .plain .plain .plain (page "# Leave".toUTF8) := by
  refine (file_settled_iff (by decide +kernel)).mpr ?_
  rw [Readable, if_pos (by decide +kernel)]
  exact ⟨"# Leave", by decide +kernel⟩

/-- The byte `ff` begins no character: the worker tries the file four times. -/
theorem undecodable_retried : ¬Settled .plain .plain .plain (page ⟨#[0xff]⟩) := by
  rw [settled_iff_extract, escapes_extract (by decide +kernel), not_not, Readable,
    if_pos (by decide +kernel)]
  rintro ⟨text, decoded⟩
  have undecoded : String.fromUTF8? (page ⟨#[0xff]⟩).bytes = none := by decide +kernel
  cases undecoded.symm.trans decoded

end OpsAssist.Parsing
