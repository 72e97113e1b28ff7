/-
# OpsAssist.Knowledge.Covered -- what the credential scan misses

The scan reads an upload as it came.  Ingestion derives from the stored file a title, a body and
blocks.  `covered_iff` says when none of them matches a credential pattern: the title as it is
read back matches none; the text behind the header, folded and without control characters,
matches none of the three patterns that cannot see spacing; and no private key opens in a line
or over the lines of one paragraph.

Pole: `titled_secret`, a page whose title is a password.

Of the host it is used that `upper` maps ASCII letters and `lower` keeps small ones.
-/
import OpsAssist.Knowledge.Paragraphs
import OpsAssist.Knowledge.Secrets

namespace OpsAssist.Parsing

set_option autoImplicit false

open Theory Text Letters Upload

/-! ## Private keys -/

/-- The first line of a private key. -/
def KeyLine (m : List Char) : Prop :=
  ∃ mid, (∀ c ∈ mid, (c.isUpper || c == ' ') = true) ∧
    m = "-----BEGIN ".toList ++ mid ++ "PRIVATE KEY-----".toList

theorem afterRun_iff {p : Char → Bool} {goal : List Char → Bool} : ∀ {text : List Char},
    afterRun p goal text = true ↔
      ∃ mid rest, text = mid ++ rest ∧ (∀ c ∈ mid, p c = true) ∧ goal rest = true
  | [] => by
      rw [afterRun]
      constructor
      · exact fun here => ⟨[], [], rfl, nofun, here⟩
      · rintro ⟨mid, rest, shape, -, here⟩
        obtain ⟨-, rfl⟩ := List.append_eq_nil_iff.mp shape.symm
        exact here
  | c :: text => by
      rw [afterRun, Bool.or_eq_true, Bool.and_eq_true, afterRun_iff]
      constructor
      · rintro (here | ⟨first, mid, rest, rfl, run, here⟩)
        · exact ⟨[], c :: text, rfl, nofun, here⟩
        · exact ⟨c :: mid, rest, rfl, by simpa [first] using run, here⟩
      · rintro ⟨mid, rest, shape, run, here⟩
        cases mid with
        | nil =>
            rw [List.nil_append] at shape
            exact .inl (shape ▸ here)
        | cons d mid =>
            obtain ⟨rfl, rfl⟩ := List.cons.inj shape
            exact .inr ⟨run c List.mem_cons_self, mid, rest, rfl,
              fun e mem => run e (List.mem_cons_of_mem c mem), here⟩

theorem privateKey_iff {text : List Char} :
    privateKey text = true ↔ ∃ m, KeyLine m ∧ m <+: text := by
  rw [privateKey, Bool.and_eq_true, afterRun_iff]
  constructor
  · rintro ⟨opens, mid, rest, shape, run, closes⟩
    have whole := List.prefix_iff_eq_append.mp (List.isPrefixOf_iff_prefix.mp opens)
    obtain ⟨back, rfl⟩ := List.isPrefixOf_iff_prefix.mp closes
    refine ⟨_, ⟨mid, run, rfl⟩, back, ?_⟩
    rw [← whole, shape]
    simp only [List.append_assoc]
  · rintro ⟨m, ⟨mid, run, rfl⟩, back, rfl⟩
    simp only [List.append_assoc]
    refine ⟨List.isPrefixOf_iff_prefix.mpr (List.prefix_append _ _), mid, _, List.drop_left, run, ?_⟩
    exact List.isPrefixOf_iff_prefix.mpr (List.prefix_append _ _)

theorem search_free {goal : List Char → Bool} : ∀ {text : List Char} {b : Option Char},
    search (fun _ => goal) b text = true ↔ ∃ rest, rest <:+ text ∧ goal rest = true
  | [], b => by simp [search]
  | c :: text, b => by
      rw [search, Bool.or_eq_true, search_free]
      simp only [List.suffix_cons_iff]
      constructor
      · rintro (here | ⟨rest, later, there⟩)
        · exact ⟨_, .inl rfl, here⟩
        · exact ⟨rest, .inr later, there⟩
      · rintro ⟨rest, rfl | later, there⟩
        · exact .inl there
        · exact .inr ⟨rest, later, there⟩

/-- **A private key begins in a text** that has its first line as a part. -/
theorem opensKey_iff {text : List Char} : opensKey text = true ↔ ∃ m, KeyLine m ∧ m <:+: text := by
  rw [opensKey, search_free]
  simp only [privateKey_iff]
  constructor
  · rintro ⟨rest, back, m, key, front⟩
    exact ⟨m, key, front.isInfix.trans back.isInfix⟩
  · rintro ⟨m, key, inside⟩
    obtain ⟨rest, front, back⟩ := List.infix_iff_prefix_suffix.mp inside
    exact ⟨rest, back, m, key, front⟩

theorem opensKey_part {x y : List Char} (inside : x <:+: y) (found : opensKey x = true) :
    opensKey y = true := by
  rw [opensKey_iff] at found ⊢
  obtain ⟨m, key, part⟩ := found
  exact ⟨m, key, part.trans inside⟩

theorem KeyLine.no_feed {m : List Char} (key : KeyLine m) : '\n' ∉ m := by
  obtain ⟨mid, run, rfl⟩ := key
  intro mem
  rcases List.mem_append.mp mem with front | closing
  · rcases List.mem_append.mp front with opening | inside
    · exact absurd opening (by decide)
    · exact absurd (run _ inside) (by decide)
  · exact absurd closing (by decide)

theorem KeyLine.first {m : List Char} (key : KeyLine m) : m.head? = some '-' := by
  obtain ⟨mid, -, rfl⟩ := key
  rfl

theorem KeyLine.last {m : List Char} (key : KeyLine m) : m.getLast? = some '-' := by
  obtain ⟨mid, -, rfl⟩ := key
  rw [List.getLast?_append]
  rfl

/-- Blanks in front of a text do not make a key. -/
theorem KeyLine.part_blanks {m : List Char} (key : KeyLine m) {text : List Char} :
    ∀ {lead : List Char}, (∀ c ∈ lead, isSpace c = true) → m <:+: lead ++ text → m <:+: text
  | [], _, inside => inside
  | c :: lead, blank, inside => by
      rcases List.infix_cons_iff.mp inside with ⟨rest, shape⟩ | later
      · have dash := congrArg List.head? shape
        rw [List.head?_append, key.first] at dash
        have same : '-' = c := Option.some.inj dash
        exact absurd (blank c List.mem_cons_self) (by rw [← same]; decide)
      · exact part_blanks key (fun d mem => blank d (List.mem_cons_of_mem c mem)) later

theorem KeyLine.part_blanks_behind {m : List Char} (key : KeyLine m) {text : List Char}
    (tail : List Char) : (∀ c ∈ tail, isSpace c = true) → m <:+: text ++ tail → m <:+: text := by
  induction tail using List.reverseRecOn with
  | nil =>
      intro _ inside
      rwa [List.append_nil] at inside
  | append_singleton tail c ih =>
      intro blank inside
      rw [← List.append_assoc] at inside
      rcases List.infix_concat_iff.mp inside with ⟨front, shape⟩ | earlier
      · have dash := congrArg List.getLast? shape
        rw [List.getLast?_append, key.last, List.getLast?_concat] at dash
        have same : '-' = c := Option.some.inj dash
        exact absurd (blank c (by simp)) (by rw [← same]; decide)
      · exact ih (fun d mem => blank d (List.mem_append_left _ mem)) earlier

theorem opensKey_strip (text : List Char) : opensKey (strip text) = opensKey text := by
  obtain ⟨lead, tail, shape, front, back⟩ := strip_shape text
  rw [Bool.eq_iff_iff]
  constructor
  · exact opensKey_part ⟨lead, tail, shape.symm⟩
  · rw [opensKey_iff, opensKey_iff]
    rintro ⟨m, key, inside⟩
    rw [shape, List.append_assoc] at inside
    exact ⟨m, key, key.part_blanks_behind tail back (key.part_blanks front inside)⟩

/-- A private key opens in a line, or over the lines of a paragraph. -/
def KeyInLines (lines : List String) : Prop :=
  (∃ line ∈ lines, opensKey line.toList = true) ∨
    ∃ run, run <:+: lines ∧ InParagraph run ∧ opensKey (paragraphText run).toList = true

theorem opensKey_lines (text : List Char) :
    opensKey text = true ↔ ∃ line ∈ lineTexts text, opensKey line.toList = true := by
  have lines : (∃ line ∈ lineTexts text, opensKey line.toList = true) ↔
      ∃ l ∈ splitOn '\n' text, opensKey l = true := by
    simp [lineTexts]
  rw [lines, opensKey_iff]
  conv_lhs => rw [← @join_splitOn '\n' text]
  constructor
  · rintro ⟨m, key, inside⟩
    have some_char : m ≠ [] := fun empty => by
      have first := key.first
      rw [empty] at first
      cases first
    obtain ⟨l, mem, part⟩ := (part_join_iff key.no_feed some_char).mp inside
    exact ⟨l, mem, opensKey_iff.mpr ⟨m, key, part⟩⟩
  · rintro ⟨l, mem, opens⟩
    obtain ⟨m, key, part⟩ := opensKey_iff.mp opens
    have some_char : m ≠ [] := fun empty => by
      have first := key.first
      rw [empty] at first
      cases first
    exact ⟨m, key, (part_join_iff key.no_feed some_char).mpr ⟨l, mem, part⟩⟩

/-- **Private keys in what is indexed.** -/
theorem key_indexed_iff (text : List Char) :
    (opensKey text = true ∨
        ∃ block ∈ blocksFromLines (lineTexts text), opensKey block.text.toList = true) ↔
      KeyInLines (lineTexts text) := by
  unfold KeyInLines
  constructor
  · rintro (body | ⟨block, mem, opens⟩)
    · exact .inl ((opensKey_lines text).mp body)
    · rcases block_lines mem with ⟨line, there, inside⟩ | ⟨run, part, whole, same⟩
      · exact .inl ⟨line, there, opensKey_part inside opens⟩
      · rw [same, stripText, String.toList_ofList, opensKey_strip] at opens
        exact .inr ⟨run, part, whole, opens⟩
  · rintro (line | ⟨run, part, whole, opens⟩)
    · exact .inl ((opensKey_lines text).mpr line)
    · obtain ⟨block, mem, front, back, same⟩ := run_in_block part whole
      refine .inr ⟨block, mem, ?_⟩
      rw [same, stripText, String.toList_ofList, opensKey_strip]
      exact opensKey_part (intercalate_part ⟨front, back, rfl⟩) opens

/-! ## The stored file -/

/-- `str.lower` of small ASCII letters and dots. -/
def LowerAscii (host : Host) : Prop :=
  ∀ name : List Char, (∀ c ∈ name, c.isLower = true ∨ c = '.') → host.lower name = name

theorem suffixAt_dot {stem ext : List Char} (some_stem : stem ≠ []) (some_ext : ext ≠ [])
    (free : '.' ∉ ext) : suffixAt (stem ++ '.' :: ext) = some stem.length := by
  have after : ((stem ++ '.' :: ext).reverse.takeWhile fun c => c ≠ '.') = ext.reverse := by
    rw [List.reverse_append, List.reverse_cons, List.append_assoc,
      List.takeWhile_append_of_pos]
    · simp
    · intro c mem
      rw [List.mem_reverse] at mem
      exact decide_eq_true fun same => free (same ▸ mem)
  have stem_pos := List.length_pos_iff.mpr some_stem
  have ext_pos := List.length_pos_iff.mpr some_ext
  unfold suffixAt
  simp only [after, List.length_reverse, List.length_append, List.length_cons]
  rw [if_pos (by omega)]
  congr 1
  omega

theorem pathSuffix_name {root stem ext : List Char} (some_stem : stem ≠ [])
    (slashes : '/' ∉ stem ++ '.' :: ext) (some_ext : ext ≠ []) (free : '.' ∉ ext) :
    pathSuffix (root ++ '/' :: (stem ++ '.' :: ext)) = '.' :: ext := by
  have base : baseName (root ++ '/' :: (stem ++ '.' :: ext)) = stem ++ '.' :: ext := by
    have whole : stem ++ '.' :: ext ≠ [] ∧ stem ++ '.' :: ext ≠ ['.'] := by
      refine ⟨by simp, fun same => ?_⟩
      have long := congrArg List.length same
      have stem_pos := List.length_pos_iff.mpr some_stem
      simp only [List.length_append, List.length_cons, List.length_nil] at long
      omega
    unfold baseName
    rw [splitOn_append_sep, splitOn_word slashes, List.filter_append, List.filter_singleton]
    simp [whole]
  unfold pathSuffix
  simp only [base, suffixAt_dot some_stem some_ext free, List.drop_left]

/-- The supported suffixes are dots and small letters. -/
theorem supported_shape : ∀ suffix ∈ SUPPORTED_SUFFIXES, ∃ ext, suffix.toList = '.' :: ext ∧
    ext ≠ [] ∧ (∀ c ∈ ext, c.isLower = true) := by
  intro suffix mem
  simp only [SUPPORTED_SUFFIXES, List.mem_cons, List.not_mem_nil, or_false] at mem
  rcases mem with rfl | rfl | rfl | rfl
  · exact ⟨['m', 'd'], rfl, by decide, List.all_eq_true.mp rfl⟩
  · exact ⟨['m', 'a', 'r', 'k', 'd', 'o', 'w', 'n'], rfl, by decide, List.all_eq_true.mp rfl⟩
  · exact ⟨['t', 'x', 't'], rfl, by decide, List.all_eq_true.mp rfl⟩
  · exact ⟨['p', 'd', 'f'], rfl, by decide, List.all_eq_true.mp rfl⟩

theorem writable_slug {principal : Principal} {department : String}
    (mem : department ∈ writableDepartments principal) : isSlug department.toList = true := by
  rw [writableDepartments, List.mem_eraseDups, List.mem_filterMap] at mem
  obtain ⟨permission, -, found⟩ := mem
  unfold writeDepartment at found
  simp only [Option.ite_none_right_eq_some, Option.some.injEq] at found
  obtain ⟨-, slug, rfl⟩ := found
  rwa [String.toList_ofList]

theorem safeSuffix_supported {host : Host} {filename suffix : String}
    (ok : safeSuffix host filename = .ok suffix) : suffix ∈ SUPPORTED_SUFFIXES := by
  unfold safeSuffix at ok
  dsimp only at ok
  split at ok
  case isTrue known =>
    rw [Except.ok.injEq] at ok
    rw [← ok]
    exact List.contains_iff_mem.mp known
  case isFalse => cases ok

theorem slash_not_mem_key {host : Host} (upper : UpperAscii host) {department : String}
    (slug : isSlug department.toList = true) (visible : List String) :
    '/' ∉ (nextDocKey host visible department).toList := by
  rw [nextDocKey_eq upper slug, String.toList_ofList, keyOpening]
  intro mem
  rcases List.mem_append.mp mem with front | number
  · rcases List.mem_append.mp front with opening | letters
    · exact absurd opening (by decide)
    · obtain ⟨c, there, same⟩ := List.mem_map.mp letters
      rcases (slug_opening slug).2 c there with lower | rfl
      · have capital := isUpper_toUpper lower
        rw [same] at capital
        exact absurd capital (by decide)
      · exact absurd same (by decide)
  · rcases List.mem_cons.mp number with dash | digits
    · exact absurd dash (by decide)
    · exact absurd (Numeral.isDigit_of_mem_zeroPad digits) (by decide)

variable {env : Upload.Env} {lib : Library} {req : UploadRequest} {v : Vetted} {files : Files}
  {e : Extracted} {doc : ParsedDocument}

/-- **The stored file keeps its kind.** -/
theorem stored_suffix (upper : UpperAscii env.host) (lower : LowerAscii env.host)
    (vetted : vet env req = .ok v) (path : files.path = (planOf env req v).path) :
    files.suffix env.host = v.suffix := by
  have passed := vet_passed vetted
  have supported := safeSuffix_supported passed.suffix
  have slug : isSlug v.department.toList = true :=
    writable_slug (by rw [passed.department]; exact List.mem_singleton_self _)
  obtain ⟨ext, shape, some_ext, small⟩ := supported_shape v.suffix supported
  have apart : ∀ c : Char, c.isLower = true → c ≠ '.' ∧ c ≠ '/' := by
    rintro c letter
    refine ⟨?_, ?_⟩ <;> rintro rfl <;> cases letter
  have key_slash := slash_not_mem_key upper slug env.visibleKeys
  have some_key : (docKeyOf env v).toList ≠ [] := by
    rw [docKeyOf, nextDocKey_eq upper slug, String.toList_ofList]
    exact List.append_ne_nil_of_right_ne_nil _ (List.cons_ne_nil _ _)
  have name : files.path.toList = (env.installRoot ++ (env.knowledgeRoot ++ "/uploads")).toList ++
      '/' :: ((docKeyOf env v).toList ++ '.' :: ext) := by
    rw [path, ← shape]
    simp [planOf, storedAs]
  have slashes : '/' ∉ (docKeyOf env v).toList ++ '.' :: ext := by
    intro mem
    rcases List.mem_append.mp mem with key | rest
    · exact key_slash key
    · rcases List.mem_cons.mp rest with dot | inside
      · exact absurd dot (by decide)
      · exact (apart _ (small _ inside)).2 rfl
  rw [Files.suffix, name, pathSuffix_name some_key slashes some_ext
    fun mem => (apart _ (small _ mem)).1 rfl, lower, ← shape, String.ofList_toList]
  intro c mem
  rcases List.mem_cons.mp mem with rfl | inside
  · exact .inr rfl
  · exact .inl (small c inside)

/-! ## What is indexed -/

/-- No text that is indexed matches a credential pattern: the body, the blocks and the title. -/
structure Covered (u : Unicode) (e : Extracted) (doc : ParsedDocument) : Prop where
  body : containsSecret u e.raw = false
  blocks : ∀ block ∈ doc.blocks, containsSecret u block.text.toList = false
  title : containsSecret u doc.metadata.title.toList = false

/-- A file holds what was written to it; a JSON object is loaded as it was dumped. -/
def Holds (lib : Library) (bytes : ByteArray) : FileContent → Prop
  | .text s => bytes = s.toUTF8
  | .bytes raw => bytes = ⟨raw.toArray⟩
  | .json fields => LoadsTo lib bytes (.obj (fields.map fun f => (f.1, .str f.2)))

/-- An upload that is accepted and no PDF, and what ingestion makes of the files it stores. -/
structure Ingests (env : Upload.Env) (lib : Library) (req : UploadRequest) (v : Vetted) (files : Files)
    (e : Extracted) (doc : ParsedDocument) : Prop where
  vetted : vet env req = .ok v
  text : v.suffix ≠ ".pdf"
  path : files.path = (mainFile env req v).1
  main : Holds lib files.bytes (mainFile env req v).2
  side : isMarkdown v.suffix = false →
    ∃ bytes, files.sidecar = some bytes ∧ Holds lib bytes (sidecarFile env req v).2
  extracted : extract env.host env.unicode lib files = .ok e
  finished : finish lib files e = .ok doc

/-- The text of the stored file, as it is read. -/
def storedText (env : Upload.Env) (req : UploadRequest) (v : Vetted) : List Char :=
  newlines (if isMarkdown v.suffix then
    (renderMarkdown (planOf env req v) v.text req.principal env.today).toList
  else ((String.fromUTF8? ⟨req.file.body.toArray⟩).getD "").toList)

/-- The title as it is read back: from the stored header, or as it was given. -/
def titleRead (env : Upload.Env) (req : UploadRequest) (v : Vetted) : Option (List Char) :=
  if isMarkdown v.suffix then
    (headerOf (normalize env.unicode (storedText env req v))).bind fun found =>
      lastEntry "title" (splitlines found.1)
  else some (planOf env req v).title.toList

/-- The text behind the stored header, folded and without control characters. -/
def plainBody (env : Upload.Env) (req : UploadRequest) (v : Vetted) : List Char :=
  if isMarkdown v.suffix then
    behindHeader (splitOn '\n' (plainLines env.unicode (storedText env req v)))
  else plainLines env.unicode (storedText env req v)

/-- The normalized lines behind the stored header. -/
def bodyLines (env : Upload.Env) (req : UploadRequest) (v : Vetted) : List String :=
  (if isMarkdown v.suffix then linesBehind (normalLines env.unicode (storedText env req v))
  else normalLines env.unicode (storedText env req v)).map String.ofList

/-- Nothing comes to match that the scan could not see. -/
structure NothingEmerges (env : Upload.Env) (req : UploadRequest) (v : Vetted) : Prop where
  title : ∀ t, titleRead env req v = some t → containsSecret env.unicode t = false
  spelt : spelt env.unicode (plainBody env req v) = false
  key : ¬KeyInLines (bodyLines env req v)

theorem textMembers_texts (texts : ∀ s, lib.str (.str s) = .ok s) :
    ∀ fields : List (String × String), textMembers lib (fields.map fun f => (f.1, .str f.2)) =
      .ok (fields.map fun f => (f.1, .str f.2))
  | [] => rfl
  | (key, s) :: fields => by
      rw [List.map_cons, textMembers]
      simp only [texts, textMembers_texts texts fields]
      rfl

/-- The bytes of a text are read as that text. -/
theorem fromUTF8_toUTF8 (s : String) : String.fromUTF8? s.toUTF8 = some s := by
  unfold String.fromUTF8?
  have valid : s.toUTF8.IsValidUTF8 := s.isValidUTF8
  rw [dif_pos valid]
  rfl

/-- What ingestion takes from the stored files. -/
theorem Ingests.taken (upper : UpperAscii env.host) (lower : LowerAscii env.host)
    (texts : ∀ s, lib.str (.str s) = .ok s) (ingests : Ingests env lib req v files e doc) :
    titleRead env req v = some doc.metadata.title.toList ∧
      words e.raw = words (plainBody env req v) ∧ lineTexts e.raw = bodyLines env req v ∧
      doc.blocks = blocksFromLines (lineTexts e.raw) := by
  have suffix := stored_suffix upper lower ingests.vetted ingests.path
  have main := ingests.main
  obtain ⟨titled, blocks⟩ := finish_ok ingests.finished
  unfold titleRead plainBody bodyLines storedText
  by_cases markdown : isMarkdown v.suffix = true
  · have kind : isMarkdown (files.suffix env.host) = true := by rw [suffix, markdown]
    obtain ⟨text, header, decoded, found, told, made⟩ := extract_markdown kind ingests.extracted
    rw [mainFile] at main
    simp only [if_pos markdown, Holds] at main ⊢
    rw [main, fromUTF8_toUTF8, Option.some.injEq] at decoded
    rw [decoded]
    refine ⟨?_, words_body found, ?_, blocks.trans made⟩
    · rw [found, Option.bind_some]
      have title : PlainKey "title" := ⟨'t', _, rfl, by decide, by decide⟩
      rw [lookup_metaLines title told, List.lookup_nil, Option.or_none] at titled
      cases there : lastEntry "title" (splitlines header) with
      | none => simp [there] at titled
      | some t =>
          rw [there, Option.map_some, Option.some.injEq, Json.str.injEq] at titled
          rw [← titled, String.toList_ofList]
    · rw [lineTexts, body_lines found]
  · have plain : v.suffix = ".txt" := by
      have supported := safeSuffix_supported (vet_passed ingests.vetted).suffix
      rw [isMarkdown, Bool.or_eq_true, beq_iff_eq, beq_iff_eq, not_or] at markdown
      simpa [SUPPORTED_SUFFIXES, markdown.1, markdown.2, ingests.text] using supported
    have kind : files.suffix env.host = ".txt" := by rw [suffix, plain]
    obtain ⟨text, decoded, body, side, made⟩ := extract_text kind ingests.extracted
    obtain ⟨bytes, there, loads⟩ := ingests.side (Bool.eq_false_iff.mpr markdown)
    rw [mainFile] at main
    simp only [if_neg markdown, Holds] at main ⊢
    rw [main] at decoded
    rw [decoded, Option.getD_some, body]
    refine ⟨?_, words_normalize _, ?_, by rw [← body]; exact blocks.trans made⟩
    · obtain ⟨loaded_text, loaded, value, -⟩ := loads
      rw [there, sidecar] at side
      simp only [readText_ok loaded, bind, Except.bind, value] at side
      rw [textMembers_texts texts, Except.ok.injEq] at side
      rw [← side] at titled
      have given : (some (.str (planOf env req v).title) : Option Value) =
          some (.str doc.metadata.title) := titled
      rw [Option.some.injEq, Json.str.injEq] at given
      rw [given]
    · rw [lineTexts, normalize_eq, splitOn_join]
      · unfold normalLines
        obtain ⟨line, lines, shape⟩ := @splitOn_cases '\n' (plainLines env.unicode
          (newlines text.toList))
        rw [shape]
        exact List.cons_ne_nil _ _
      · exact fun l mem => feed_not_mem_lines mem

theorem scanned (vetted : vet env req = .ok v) (some_text : v.text ≠ "") :
    containsSecret env.unicode v.text.toList = false := by
  have ok := (vet_passed vetted).scanned some_text
  unfold scanForSecrets at ok
  split at ok
  · cases ok
  case isFalse none => exact Bool.eq_false_iff.mpr none

/-- The words of a body that are words of the upload have been scanned. -/
theorem spelt_of_scan (spacing : Spacing env.unicode) (vetted : vet env req = .ok v)
    (inside : words (plainBody env req v) <:+: words v.text.toList) :
    spelt env.unicode (plainBody env req v) = false := by
  rw [← Bool.not_eq_true]
  intro found
  have there := spelt_part spacing inside found
  by_cases empty : v.text = ""
  · rw [empty] at there
    simp [spelt, search_nil (blind_apiToken spacing), search_nil (blind_assignedSecret spacing),
      search_nil (blind_accessKey spacing)] at there
  · have quiet := scanned vetted empty
    rw [← Bool.not_eq_true, containsSecret_iff] at quiet
    exact quiet (.inl there)

/-- **When the scan covers what is indexed.** -/
theorem covered_iff (spacing : Spacing env.unicode) (upper : UpperAscii env.host)
    (lower : LowerAscii env.host) (texts : ∀ s, lib.str (.str s) = .ok s)
    (ingests : Ingests env lib req v files e doc) :
    Covered env.unicode e doc ↔ NothingEmerges env req v := by
  obtain ⟨title, body, lines, blocks⟩ := ingests.taken upper lower texts
  have titled : (∀ t, titleRead env req v = some t → containsSecret env.unicode t = false) ↔
      containsSecret env.unicode doc.metadata.title.toList = false := by
    rw [title]
    simp
  have none_iff : ∀ text : List Char, containsSecret env.unicode text = false ↔
      spelt env.unicode text = false ∧ opensKey text = false := by
    intro text
    rw [← Bool.not_eq_true, containsSecret_iff, not_or, Bool.not_eq_true, Bool.not_eq_true]
  have keys := key_indexed_iff e.raw
  rw [lines] at keys
  have same := spelt_words spacing body
  constructor
  · intro covered
    refine ⟨titled.mpr covered.title, ?_, ?_⟩
    · rw [← same]
      exact ((none_iff _).mp covered.body).1
    · rw [← keys]
      rintro (opens | ⟨block, mem, opens⟩)
      · rw [((none_iff _).mp covered.body).2] at opens
        cases opens
      · rw [← lines, ← blocks] at mem
        rw [((none_iff _).mp (covered.blocks block mem)).2] at opens
        cases opens
  · intro quiet
    have closed := quiet.key
    rw [← keys, not_or, not_exists] at closed
    refine ⟨?_, ?_, titled.mp quiet.title⟩
    · exact (none_iff _).mpr ⟨by rw [same, quiet.spelt], Bool.eq_false_iff.mpr closed.1⟩
    · intro block mem
      rw [blocks] at mem
      refine (none_iff _).mpr ⟨?_, ?_⟩
      · rw [← Bool.not_eq_true]
        intro found
        have there := spelt_part spacing (block_words e.raw mem) found
        rw [same, quiet.spelt] at there
        cases there
      · rw [← Bool.not_eq_true]
        intro opens
        rw [lines] at mem
        exact closed.2 block ⟨mem, opens⟩

/-! ## Poles -/

theorem not_alphanum_of_blank {c : Char} (blank : isSpace c = true) : c.isAlphanum = false := by
  rw [← Bool.not_eq_true]
  intro letter
  have bounds := isAlphanum_range letter
  have range := isSpace_range blank
  omega

theorem plain_spacing : Spacing .plain where
  apart c blank := by
    have score : c ≠ '_' := by
      rintro rfl
      cases blank
    simp [Unicode.plain, not_alphanum_of_blank blank, score]
  letter c d solid blank := by
    have plain := not_alphanum_of_blank blank
    have plain : ¬((d.isUpper = true ∨ d.isLower = true) ∨ d.isDigit = true) := fun letter => by
      rw [isAlphanum_iff.mpr letter] at plain
      cases plain
    have small : d.toLower = d :=
      toLower_same (Bool.eq_false_iff.mpr fun upper => plain (.inl (.inl upper)))
    change (c.toLower == d.toLower) = false
    rw [small, beq_eq_false_iff_ne]
    intro same
    by_cases upper : c.isUpper = true
    · have lower := isLower_toLower upper
      rw [same] at lower
      exact plain (.inl (.inr lower))
    · rw [toLower_same (Bool.eq_false_iff.mpr upper)] at same
      rw [same, blank] at solid
      cases solid

theorem plain_lower : LowerAscii .plain := by
  intro name small
  have each : ∀ c ∈ name, c.toLower = c := by
    intro c mem
    refine toLower_same ?_
    rcases small c mem with lower | rfl
    · exact lower_not_upper lower
    · rfl
  exact (List.map_congr_left each).trans (List.map_id' name)

deriving instance DecidableEq for Vetted

/-- A stored Markdown page. -/
def storedPage (req : UploadRequest) (v : Vetted) : Files where
  path := (mainFile plainEnv req v).1
  bytes := (renderMarkdown (planOf plainEnv req v) v.text req.principal plainEnv.today).toUTF8
  sidecar := none

/-- The characters of a rendered page. -/
def pageChars (plan : UploadPlan) (body : List Char) (principal : Principal) (today : String) :
    List Char :=
  "---\n".toList ++ (frontMatterLines plan principal today).flatMap (fun line => line ++ ['\n']) ++
    "---\n\n".toList ++ (kept body).dropWhile isSpace ++ ['\n']

theorem toList_renderMarkdown (plan : UploadPlan) (body : String) (principal : Principal)
    (today : String) : (renderMarkdown plan body principal today).toList =
      pageChars plan body.toList principal today := by
  rw [renderMarkdown_kept, String.toList_ofList]
  rfl

def pageText (req : UploadRequest) (v : Vetted) : List Char :=
  pageChars (planOf plainEnv req v) v.text.toList req.principal plainEnv.today

theorem storedText_page {req : UploadRequest} {v : Vetted} (markdown : isMarkdown v.suffix = true) :
    storedText plainEnv req v = newlines (pageText req v) := by
  rw [storedText, if_pos markdown, toList_renderMarkdown]
  rfl

theorem titleRead_page {req : UploadRequest} {v : Vetted} (markdown : isMarkdown v.suffix = true) :
    titleRead plainEnv req v = (headerOf (normalize .plain (newlines (pageText req v)))).bind
      fun found => lastEntry "title" (splitlines found.1) := by
  rw [titleRead, if_pos markdown, storedText_page markdown]
  rfl

theorem bodyLines_page {req : UploadRequest} {v : Vetted} (markdown : isMarkdown v.suffix = true) :
    bodyLines plainEnv req v =
      (linesBehind (normalLines .plain (newlines (pageText req v)))).map String.ofList := by
  rw [bodyLines, if_pos markdown, storedText_page markdown]
  rfl

/-- The text has a header with valid metadata, and something behind it. -/
def isPage (text : List Char) : Bool :=
  match splitFrontMatter .plain (normalize .plain text) with
  | .ok (members, body) => (validateMeta .plain members).isOk &&
      (blocksFromLines (lineTexts body)).any fun b => b.kind != .heading
  | .error _ => false

/-- Ingestion makes a document of a page that is accepted. -/
theorem ingests_page {req : UploadRequest} {v : Vetted} (vetted : vet plainEnv req = .ok v)
    (markdown : isMarkdown v.suffix = true) (page : isPage (newlines (pageText req v)) = true) :
    ∃ e doc, Ingests plainEnv .plain req v (storedPage req v) e doc := by
  have other : v.suffix ≠ ".pdf" := fun pdf => by
    rw [pdf] at markdown
    cases markdown
  have kind : isMarkdown ((storedPage req v).suffix .plain) = true := by
    have suffix := @stored_suffix plainEnv req v (storedPage req v) plain_upper plain_lower vetted
      (by rw [storedPage, mainFile])
    rw [← markdown, ← suffix]
    rfl
  have read : readText (storedPage req v).bytes = .ok (newlines (pageText req v)) := by
    have decoded : String.fromUTF8? (storedPage req v).bytes = some (renderMarkdown
        (planOf plainEnv req v) v.text req.principal plainEnv.today) := by
      rw [storedPage, fromUTF8_toUTF8]
    rw [readText_ok decoded, toList_renderMarkdown]
    rfl
  unfold isPage at page
  split at page
  case h_2 => cases page
  case h_1 members body split =>
    rw [Bool.and_eq_true] at page
    cases checked : validateMeta .plain members with
    | error errors =>
        rw [checked] at page
        cases page.1
    | ok m =>
      have extracted : extract .plain .plain .plain (storedPage req v) = .ok
          { members, blocks := blocksFromLines (lineTexts body), mimeType := "text/markdown",
            raw := body } := by
        rw [extract, if_pos kind, read]
        refine bind_ok.mpr ⟨_, rfl, ?_⟩
        rw [split]
        rfl
      have finished : finish .plain (storedPage req v)
          { members, blocks := blocksFromLines (lineTexts body), mimeType := "text/markdown",
            raw := body } = .ok
          { metadata := m, blocks := blocksFromLines (lineTexts body), mimeType := "text/markdown",
            sourcePath := (storedPage req v).path } := by
        simp only [finish, checked, page.2, if_true]
      refine ⟨_, _, vetted, other, by rw [storedPage], ?_, fun plain => ?_, extracted, finished⟩
      · rw [mainFile, storedPage]
        simp only [if_pos markdown, Holds]
      · rw [markdown] at plain
        cases plain

def leave : Vetted := ⟨"hr", .internal, ".md", "Hi"⟩

theorem leave_vetted : vet plainEnv leavePage = .ok leave := by decide +kernel

theorem plain_texts : ∀ s, Library.plain.str (.str s) = .ok s := fun _ => rfl

theorem leave_quiet : NothingEmerges plainEnv leavePage leave where
  title t read := by
    have told : titleRead plainEnv leavePage leave = some "leave".toList :=
      (titleRead_page (by decide)).trans (by decide +kernel)
    rw [told, Option.some.injEq] at read
    rw [← read]
    decide +kernel
  spelt := by
    rw [plainBody, if_pos (by decide), storedText_page (by decide)]
    decide +kernel
  key := by
    have lines : bodyLines plainEnv leavePage leave = lineTexts "\n\nHi\n".toList :=
      (bodyLines_page (by decide)).trans (by decide +kernel)
    rw [lines, ← key_indexed_iff]
    decide +kernel

theorem covered_pole : ∃ e doc,
    Ingests plainEnv .plain leavePage leave (storedPage leavePage leave) e doc ∧
      Covered .plain e doc := by
  obtain ⟨e, doc, ingests⟩ := ingests_page leave_vetted (by decide) (by decide +kernel)
  have covered : Covered plainEnv.unicode e doc :=
    (covered_iff plain_spacing plain_upper plain_lower plain_texts ingests).mpr leave_quiet
  exact ⟨e, doc, ingests, covered⟩

/-- The same page under another title. -/
def titledPage : UploadRequest := { leavePage with title := some "password: hunter22" }

/-- **The title is not scanned**: a password comes to stand over every passage of the page. -/
theorem titled_secret : ∃ e doc,
    Ingests plainEnv .plain titledPage leave (storedPage titledPage leave) e doc ∧
      ¬Covered .plain e doc := by
  obtain ⟨e, doc, ingests⟩ := ingests_page (by decide +kernel : vet plainEnv titledPage = .ok leave)
    (by decide) (by decide +kernel)
  refine ⟨e, doc, ingests, fun covered => ?_⟩
  obtain ⟨title, -⟩ := ingests.taken plain_upper plain_lower plain_texts
  have read : titleRead plainEnv titledPage leave = some "password: hunter22".toList :=
    (titleRead_page (by decide)).trans (by decide +kernel)
  rw [read, Option.some.injEq] at title
  have secret := covered.title
  rw [← title] at secret
  exact absurd secret (by decide +kernel)

end OpsAssist.Parsing
