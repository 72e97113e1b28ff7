/-
# OpsAssist.Knowledge.FrontMatter -- two readers of one header

An upload is checked and stripped by a pattern over its text as it came; the parser looks for
the header in the normalized text.  `seen_alike_iff` says when the two agree: the parser's
claims are rejected, and the header that is stripped is the one the parser would have taken.

Pole: `carriage_returns_unseen`, a header with the line ends of another system.

Of the normalization form it is only used that a line feed stands for itself.
-/
import OpsAssist.Knowledge.ParseFile
import OpsAssist.Theory.Lines

namespace OpsAssist.Parsing

set_option autoImplicit false

open Theory Text Upload

/-! ## Normalizing line by line -/

/-- The normalized lines. -/
def normalLines (u : Unicode) (text : List Char) : List (List Char) :=
  (splitOn '\n' (plainLines u text)).map tidy

variable {host : Host} {u : Unicode}

theorem normalize_eq (text : List Char) : normalize u text = join '\n' (normalLines u text) := rfl

theorem mem_squeeze {c : Char} : ∀ {line : List Char}, c ∈ squeeze line → c = ' ' ∨ c ∈ line
  | [], mem => absurd mem List.not_mem_nil
  | d :: line, mem => by
      rw [squeeze] at mem
      have later : c ∈ squeeze line → c = ' ' ∨ c ∈ d :: line := fun mem =>
        (mem_squeeze mem).imp_right (List.mem_cons_of_mem d)
      split at mem
      · split at mem
        · exact later mem
        · rcases List.mem_cons.mp mem with rfl | mem
          · exact .inl rfl
          · exact later mem
      · rcases List.mem_cons.mp mem with rfl | mem
        · exact .inr List.mem_cons_self
        · exact later mem

theorem mem_strip {c : Char} {line : List Char} (mem : c ∈ strip line) : c ∈ line := by
  obtain ⟨lead, tail, shape, -, -⟩ := strip_shape line
  rw [shape]
  simp [mem]

theorem feed_not_mem_tidy {line : List Char} (free : '\n' ∉ line) : '\n' ∉ tidy line := by
  intro mem
  rcases mem_squeeze (mem_strip mem) with blank | inside
  · cases blank
  · exact free inside

theorem feed_not_mem_lines {text line : List Char}
    (mem : line ∈ (splitOn '\n' text).map tidy) : '\n' ∉ line := by
  obtain ⟨raw, there, rfl⟩ := List.mem_map.mp mem
  exact feed_not_mem_tidy (sep_not_mem_splitOn raw there)

/-! ## The two headers -/

def RULE : List Char := ['-', '-', '-']

/-- Where the parser finds a header: its text, and what follows. -/
def headerOf (text : List Char) : Option (List Char × List Char) :=
  if "---\n".toList.isPrefixOf text then cut "\n---".toList (text.drop 4) else none

theorem splitFrontMatter_of_header {text lines body : List Char}
    (found : headerOf text = some (lines, body)) : splitFrontMatter host text =
      ((splitlines lines).foldlM (metaLine host) []).map fun members => (members, body) := by
  unfold headerOf at found
  unfold splitFrontMatter
  by_cases opens : "---\n".toList.isPrefixOf text = true
  · rw [if_pos opens] at found ⊢
    simp only [found]
    cases (splitlines lines).foldlM (metaLine host) [] <;> rfl
  · rw [if_neg opens] at found
    cases found

theorem splitFrontMatter_of_none {text : List Char} (missing : headerOf text = none) :
    ∃ message, splitFrontMatter host text = .error (.parseError message) := by
  unfold headerOf at missing
  unfold splitFrontMatter
  by_cases opens : "---\n".toList.isPrefixOf text = true
  · rw [if_pos opens] at missing ⊢
    simp only [missing]
    exact ⟨_, rfl⟩
  · rw [if_neg opens]
    exact ⟨_, rfl⟩

theorem headerOf_shape {text lines body : List Char} (found : headerOf text = some (lines, body)) :
    text = RULE ++ '\n' :: (lines ++ '\n' :: (RULE ++ body)) := by
  unfold headerOf at found
  by_cases opens : "---\n".toList.isPrefixOf text = true
  · rw [if_pos opens] at found
    have split := List.prefix_iff_eq_append.mp (List.isPrefixOf_iff_prefix.mp opens)
    rw [← split]
    exact congrArg ("---\n".toList ++ ·) (cut_sound found)
  · rw [if_neg opens] at found
    cases found

theorem headerOf_lines {first : List Char} {others : List (List Char)} (free : '\n' ∉ first)
    (frees : ∀ l ∈ others, '\n' ∉ l) :
    headerOf (RULE ++ under '\n' (first :: others)) =
      match others.dropWhile fun l => !RULE.isPrefixOf l with
      | [] => none
      | l :: after => some (first ++ under '\n' (others.takeWhile fun l => !RULE.isPrefixOf l),
          l.drop RULE.length ++ under '\n' after) := by
  have opens : "---\n".toList.isPrefixOf (RULE ++ under '\n' (first :: others)) = true := by
    rw [under_cons]
    rfl
  have behind : (RULE ++ under '\n' (first :: others)).drop 4 = first ++ under '\n' others := by
    rw [under_cons]
    rfl
  rw [headerOf, if_pos opens, behind]
  change cut ('\n' :: RULE) _ = _
  rw [cut_skip rfl _ free, cut_lines (by decide) frees]
  cases others.dropWhile fun l => !RULE.isPrefixOf l <;> rfl

/-- The value of a line with the key. -/
def entry (key : String) (line : List Char) : Option (List Char) :=
  match partition ':' line with
  | (name, some value) => if strip name = key.toList then some (unquoted value) else none
  | (_, none) => none

/-- The value of the last line with the key. -/
def lastEntry (key : String) (lines : List (List Char)) : Option (List Char) :=
  (lines.filterMap (entry key)).getLast?

/-- A key that no comment line can have. -/
def PlainKey (key : String) : Prop :=
  ∃ c rest, key.toList = c :: rest ∧ isSpace c = false ∧ c ≠ '#'

theorem dropWhile_blanks {p : Char → Bool} {lead rest : List Char} {c : Char}
    (blank : ∀ d ∈ lead, p d = true) (other : p c = false) :
    (lead ++ c :: rest).dropWhile p = c :: rest := by
  rw [List.dropWhile_append_of_pos blank, List.dropWhile_cons_of_neg (by simp [other])]

theorem entry_comment {key : String} (plain : PlainKey key) {line : List Char}
    (comment : isComment line = true) : entry key line = none := by
  obtain ⟨c, more, shape, solid, other⟩ := plain
  unfold entry
  cases parts : partition ':' line with
  | mk name value =>
      cases value with
      | none => rfl
      | some value =>
          refine if_neg fun same => ?_
          obtain ⟨lead, tail, spelled, blank, -⟩ := strip_shape name
          rw [same, shape] at spelled
          have whole : line = lead ++ c :: (more ++ tail ++ ':' :: value) := by
            rw [partition_some parts, spelled]
            simp
          rw [isComment, Bool.or_eq_true, decide_eq_true_eq, beq_iff_eq] at comment
          rcases comment with empty | mark
          · obtain ⟨front, back, around, left, right⟩ := strip_shape line
            rw [empty, List.append_nil] at around
            have mem : c ∈ front ++ back := by
              rw [← around, whole]
              simp
            rcases List.mem_append.mp mem with inside | inside
            · exact absurd (left c inside) (by simp [solid])
            · exact absurd (right c inside) (by simp [solid])
          · rw [whole, dropWhile_blanks blank solid] at mark
            exact other (Option.some.inj mark)

theorem lookup_metaLine {key : String} (plain : PlainKey key) {members told : Members}
    {line : List Char} (ok : metaLine host members line = .ok told) :
    told.lookup key =
      ((entry key line).map fun v => .str (String.ofList v)).or (members.lookup key) := by
  unfold metaLine at ok
  by_cases comment : isComment line = true
  · rw [if_pos comment] at ok
    cases ok
    rw [entry_comment plain comment]
    rfl
  · rw [if_neg comment] at ok
    unfold entry
    cases parts : partition ':' line with
    | mk name value =>
        rw [parts] at ok
        cases value with
        | none => cases ok
        | some value =>
            cases ok
            rw [lookup_setMember]
            by_cases here : strip name = key.toList
            · simp [here]
            · have apart : key ≠ String.ofList (strip name) := fun same =>
                here (by rw [same, String.toList_ofList])
              simp [here, apart]

theorem lastEntry_cons (key : String) (line : List Char) (lines : List (List Char)) :
    lastEntry key (line :: lines) = (lastEntry key lines).or (entry key line) := by
  unfold lastEntry
  cases here : entry key line with
  | none => simp [here]
  | some v =>
      rw [List.filterMap_cons_some here, List.getLast?_cons]
      cases (lines.filterMap (entry key)).getLast? <;> rfl

/-- **What the parser's dictionary holds**: the last entry of a key. -/
theorem lookup_metaLines {key : String} (plain : PlainKey key) :
    ∀ {lines : List (List Char)} {members told : Members},
      lines.foldlM (metaLine host) members = .ok told → told.lookup key =
        ((lastEntry key lines).map fun v => .str (String.ofList v)).or (members.lookup key)
  | [], members, told, ok => by
      cases ok
      rfl
  | line :: lines, members, told, ok => by
      rw [List.foldlM_cons] at ok
      cases here : metaLine host members line with
      | error f =>
          rw [here] at ok
          cases ok
      | ok mid =>
          rw [here] at ok
          rw [lookup_metaLines plain ok, lookup_metaLine plain here, lastEntry_cons]
          cases lastEntry key lines <;> simp

/-- `upload_document` turns the text away. -/
def Rejects (host : Host) (u : Unicode) (text : String) (department : String)
    (classification : Classification) : Prop :=
  ∃ message, (do
    scanForSecrets u text
    checkClaims host (claimedMetadata text.toList) department classification) = .error message

/-- What `render_markdown` keeps of a text. -/
def kept (text : List Char) : List Char := ((frontMatter text).map Prod.snd).getD text

theorem renderMarkdown_kept (plan : UploadPlan) (body : String) (principal : Principal)
    (today : String) : renderMarkdown plan body principal today =
      String.ofList ("---\n".toList ++
        (frontMatterLines plan principal today).flatMap (fun line => line ++ ['\n']) ++
        "---\n\n".toList ++ (kept body.toList).dropWhile isSpace ++ ['\n']) := rfl

theorem bind_ok {ε α β : Type} {x : Except ε α} {f : α → Except ε β} {b : β} :
    x >>= f = .ok b ↔ ∃ a, x = .ok a ∧ f a = .ok b := by
  cases x <;> simp [bind, Except.bind]

theorem rejected_ok {α : Type} {status : Nat} {x : Except Rejected α} {a : α} :
    rejected status x = .ok a ↔ x = .ok a := by
  cases x <;> simp [rejected]

/-- What an accepted request has passed. -/
structure Passed (env : Upload.Env) (req : UploadRequest) (v : Vetted) : Prop where
  department : writableDepartments req.principal = [v.department]
  suffix : safeSuffix env.host (req.file.filename.getD "") = .ok v.suffix
  classification : chooseClassification env.host req.principal v.department req.classification =
    .ok v.classification
  small : req.file.body.length ≤ MAX_UPLOAD_BYTES
  content : req.file.body ≠ []
  text : v.text = if v.suffix ≠ ".pdf" then env.unicode.decode req.file.body else ""
  scanned : v.text ≠ "" → scanForSecrets env.unicode v.text = .ok ()
  claims : v.text ≠ "" →
    checkClaims env.host (claimedMetadata v.text.toList) v.department v.classification = .ok ()

theorem vet_passed {env : Upload.Env} {req : UploadRequest} {v : Vetted} (vetted : vet env req = .ok v) :
    Passed env req v := by
  unfold vet at vetted
  cases departments : writableDepartments req.principal with
  | nil =>
      rw [departments] at vetted
      cases (bind_ok.mp vetted).choose_spec.1
  | cons department others =>
      cases others with
      | cons other others =>
          rw [departments] at vetted
          cases (bind_ok.mp vetted).choose_spec.1
      | nil =>
          rw [departments] at vetted
          obtain ⟨_, here, vetted⟩ := bind_ok.mp vetted
          cases here
          obtain ⟨suffix, supported, vetted⟩ := bind_ok.mp vetted
          obtain ⟨chosen, allowed, vetted⟩ := bind_ok.mp vetted
          dsimp only at vetted
          by_cases large : MAX_UPLOAD_BYTES < (req.file.body.take (MAX_UPLOAD_BYTES + 1)).length
          · rw [if_pos large] at vetted
            cases (bind_ok.mp vetted).choose_spec.1
          · rw [if_neg large] at vetted
            have small : req.file.body.length ≤ MAX_UPLOAD_BYTES := by
              rw [List.length_take] at large
              omega
            rw [List.take_of_length_le (by omega)] at vetted
            by_cases empty : req.file.body = []
            · rw [if_pos empty] at vetted
              cases (bind_ok.mp vetted).choose_spec.1
            · rw [if_neg empty] at vetted
              generalize read :
                (if suffix ≠ ".pdf" then env.unicode.decode req.file.body else "") = text at vetted
              by_cases blank : text = ""
              · rw [if_neg (not_not.mpr blank)] at vetted
                cases vetted
                exact ⟨departments, rejected_ok.mp supported, rejected_ok.mp allowed, small, empty,
                  read.symm, absurd blank, absurd blank⟩
              · rw [if_pos blank] at vetted
                obtain ⟨_, scanned, vetted⟩ := bind_ok.mp vetted
                obtain ⟨_, claims, vetted⟩ := bind_ok.mp vetted
                cases vetted
                exact ⟨departments, rejected_ok.mp supported, rejected_ok.mp allowed, small, empty,
                  read.symm, fun _ => rejected_ok.mp scanned, fun _ => rejected_ok.mp claims⟩

/-- An accepted upload was not turned away. -/
theorem accepted_not_rejected {env : Upload.Env} {req : UploadRequest} {v : Vetted}
    (vetted : vet env req = .ok v) (some_text : v.text ≠ "") :
    ¬Rejects env.host env.unicode v.text v.department v.classification := by
  rintro ⟨message, rejects⟩
  have passed := vet_passed vetted
  rw [passed.scanned some_text] at rejects
  exact absurd (rejects.symm.trans (passed.claims some_text)) nofun

/-! ## Poles -/

/-- A page of another department, with the line ends of another system. -/
def carried : String := "---\r\ndepartment: hr\r\n---\r\nLeave"

def written : String := "---\ndepartment: hr\n---\nLeave"

end OpsAssist.Parsing
