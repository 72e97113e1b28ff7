/-
# OpsAssist.Agent.Router -- the router cannot act on its own

A message is routed by its form, by an identifier in it, or by a model's reply, and a
model's decision is overruled where the message does not bear it out.

`decision_bounded`: whatever the message and the reply, the decision names a registered
tool, a record only when the message asks for it, and a read only with arguments its
schema accepts; a reply without a readable decision has no tool.
Pole: `decision_bounded_pole`.
-/
import OpsAssist.Citations
import OpsAssist.Tools.Registry

namespace OpsAssist.Router

set_option autoImplicit false

open Theory Theory.Pattern Theory.Text

/-! ## Skills -/

/-- A tool with the parts of its skill card that are enforced in code. -/
structure Skill extends ToolSpec where
  /-- a read-only skill may claim a message that contains this, as this argument -/
  trigger : Option (Pattern × String) := none
  /-- a skill that writes may be used only when the message has one of these words -/
  namesRecord : List String := []

/-- `INC-[0-9]{1,10}`, in any case -/
def TICKET_ID : Pattern := all [anyCase "inc", char '-', .rep 1 (some 10) (.set isDigit09)]

/-- What a tool's skill card adds to its contract. -/
def skillOf (spec : ToolSpec) : Skill :=
  match spec.name with
  | "create_support_ticket" => { spec with namesRecord := ["ticket"] }
  | "get_support_ticket" => { spec with trigger := some (TICKET_ID, "ticket_id") }
  | "create_vpn_profile" => { spec with namesRecord := ["vpn", "openvpn"] }
  | _ => { spec with }

def SKILLS : List Skill := TOOLS.map skillOf

/-- `TOOLS.get(tool)` -/
def findSkill (tool : String) : Option Skill := SKILLS.find? fun skill => skill.name == tool

/-- `spec.effect == "reads data"` -/
def Skill.readsData (skill : Skill) : Bool :=
  !skill.sensitive &&
    ("get_".toList.isPrefixOf skill.name.toList || "search_".toList.isPrefixOf skill.name.toList)

variable (host : Host) (word : Char → Bool)

/-- `re.findall(r"[a-z]+", message.lower())` -/
def wordsOf (message : String) : List (List Char) :=
  ((plus (.set isLowerAz)).findAll (host.lower message.toList)).map Match.text

/-- Whether the message asks for the record a writing skill creates. -/
def asksForRecord (tool : String) (message : String) : Bool :=
  match findSkill tool with
  | none => true
  | some skill =>
      skill.namesRecord.isEmpty ||
        skill.namesRecord.any fun w => (wordsOf host message).contains w.toList

/-- A read-only skill proposed with arguments its own schema rejects. -/
def readsWithInvalidArguments (tool : String) (arguments : Members) : Bool :=
  match findSkill tool with
  | none => false
  | some skill =>
      skill.readsData &&
        match skill.argsModel.validate host (.obj arguments) with
        | .ok _ => false
        | .error _ => true

/-- What a skill finds in a message that names it by an identifier. -/
def Skill.claims (skill : Skill) (message : String) : Option (String × Members) :=
  match skill.trigger with
  | none => none
  | some (pattern, argument) =>
      if skill.sensitive || !skill.readsData then none
      else
        ((all [edge word, pattern, edge word]).search message.toList).map fun m =>
          (skill.name, [(argument, .str (String.ofList (host.upper m.text)))])

/-- The one read-only skill a message names by an exact identifier. -/
def triggeredSkill (message : String) : Option (String × Members) :=
  match SKILLS.filterMap fun skill => skill.claims host word message with
  | [claimed] => some claimed
  | _ => none

/-! ## The form of a message -/

def QUESTION_WORDS : List String :=
  ["can", "could", "may", "might", "must", "should", "shall", "will", "would", "do", "does",
    "did", "is", "are", "was", "were", "has", "have", "who", "whom", "whose", "what", "when",
    "where", "why", "how", "which"]

def ADDRESSED : List String := ["you", "your", "yourself", "please"]

def SOFTENERS : List String := ["please", "kindly", "now", "just", "go", "ahead", "and", "then"]

def ACTIONS : List String :=
  ["restart", "reboot", "start", "stop", "shut", "shutdown", "kill", "terminate", "halt",
    "pause", "resume", "delete", "remove", "drop", "destroy", "wipe", "purge", "flush", "reset",
    "deploy", "redeploy", "release", "roll", "rollback", "revert", "scale", "resize", "patch",
    "upgrade", "downgrade", "update", "install", "uninstall", "migrate", "run", "execute",
    "restore", "drain", "disable", "enable", "block", "unblock", "grant", "revoke", "rotate",
    "change", "modify", "edit", "apply", "provision", "decommission", "failover", "promote",
    "demote"]

def inVocabulary (vocabulary : List String) (w : List Char) : Bool :=
  vocabulary.any fun v => v.toList == w

/-- A question that does not ask the assistant to do anything. -/
def asksAboutRules (message : String) : Bool :=
  match wordsOf host message with
  | [] => false
  | first :: rest =>
      let words := first :: rest
      let question := inVocabulary QUESTION_WORDS first ||
        (message.toList.reverse.dropWhile isSpace).head? == some '?'
      let addressed := words.any (inVocabulary ADDRESSED) ||
        contains "for me".toList (join ' ' words)
      question && !addressed

/-- An instruction whose first real word is a verb that changes a system. -/
def asksForUnsupportedAction (message : String) : Bool :=
  match (wordsOf host message).filter fun w => !inVocabulary SOFTENERS w with
  | [] => false
  | first :: _ => inVocabulary ACTIONS first

/-- A letter with its other case, outside ASCII. -/
def oneOfChars (chars : List Char) : Pattern := .set (chars.contains ·)

/-- Only unmistakable social openers.  The closing class takes a final line feed, so its end
is the end of the text. -/
def SMALL_TALK : Pattern :=
  let time := oneOf [anyCase "morning", anyCase "afternoon", anyCase "evening"]
  let chao := all [anyCase "ch", oneOfChars ['à', 'À'], anyCase "o"]
  all [star space,
    oneOf [anyCase "hi", anyCase "hello", anyCase "hey", anyCase "yo",
      all [anyCase "good", char ' ', time], anyCase "thanks",
      all [anyCase "thank", char ' ', anyCase "you"], anyCase "thx", anyCase "ok", anyCase "okay",
      anyCase "bye", anyCase "goodbye", anyCase "cheers", chao,
      all [anyCase "xin", char ' ', chao],
      all [anyCase "c", oneOfChars ['ả', 'Ả'], anyCase "m", char ' ', oneOfChars ['ơ', 'Ơ'],
        anyCase "n"]],
    star (.set fun c => isSpace c || ['!', '.', ',', ':', ';', ')', '-'].contains c),
    .look fun _ after => after.isNone]

def smallTalk (message : String) : Bool :=
  (SMALL_TALK.matchAt { rest := message.toList }).isSome

/-! ## The decision -/

inductive Route where
  | smallTalk
  | knowledge
  | tool
  | refuse
deriving DecidableEq

structure RouterDecision where
  route : Route
  tool : Option String := none
  arguments : Members := []

/-- A decision without a tool. -/
def RouterDecision.bare (route : Route) : RouterDecision := { route }

/-- The text of the object in a reply: `\x7b.*\x7d` over lines. -/
def OBJECT : Pattern := all [char '\x7b', star (.set fun _ => true), char '\x7d']

/-- The object a reply holds, as `json.loads` reads it. -/
def objectIn (loads : List Char → Option Value) (text : String) : Option Value :=
  (OBJECT.search text.toList).bind fun m => loads m.text

/-- `_parse_decision`; `none` when what was read has no members. -/
def parseDecision (loads : List Char → Option Value) (text : String) : Option RouterDecision :=
  match objectIn loads text with
  | none => some (.bare .knowledge)
  | some (.obj members) =>
      match members.lookup "route" with
      | some (.str "refuse") => some (.bare .refuse)
      | some (.str "tool") =>
          match members.lookup "tool" with
          | some (.str tool) =>
              if (findSkill tool).isSome then
                some {
                  route := .tool, tool := some tool,
                  arguments :=
                    match members.lookup "arguments" with
                    | some (.obj arguments) => arguments
                    | _ => [] }
              else some (.bare .knowledge)
          | _ => some (.bare .knowledge)
      | _ => some (.bare .knowledge)
  | some _ => none

/-- A decision that names a tool it may not have is changed to one without. -/
def RouterDecision.overrule (d : RouterDecision) (when_ : String → Bool) (instead : Route) :
    RouterDecision :=
  match d.route, d.tool with
  | .tool, some tool => if when_ tool then .bare instead else d
  | _, _ => d

/-- The checks on a model's decision, in order. -/
def checked (message : String) (d : RouterDecision) : RouterDecision :=
  let d := d.overrule (fun tool => !asksForRecord host tool message) .knowledge
  let d := if d.route = .refuse ∧ asksAboutRules host message = true then .bare .knowledge else d
  let d := d.overrule (fun tool =>
    ((findSkill tool).any Skill.readsData) && asksForUnsupportedAction host message) .refuse
  d.overrule (fun tool => readsWithInvalidArguments host tool d.arguments) .knowledge

/-- `classify`; the model's reply, or `none` when no model could give one. -/
def classify (loads : List Char → Option Value) (message : String) (reply : Option String) :
    Option RouterDecision :=
  if smallTalk message then some (.bare .smallTalk)
  else match triggeredSkill host word message with
    | some (skill, found) => some { route := .tool, tool := some skill, arguments := found }
    | none =>
        match reply with
        | none => some (.bare .knowledge)
        | some text => (parseDecision loads text).map (checked host message)

/-! ## What a decision may be -/

/-- Members that say a route the router knows, and for a tool one that is registered. -/
def Known (members : Members) : Prop :=
  members.lookup "route" = some (.str "refuse") ∨
    (members.lookup "route" = some (.str "tool") ∧
      ∃ tool, members.lookup "tool" = some (.str tool) ∧ (findSkill tool).isSome)

/-- A model is asked. -/
def Asked (message : String) : Prop :=
  smallTalk message = false ∧ triggeredSkill host word message = none

/-- The decision of an identifier: a read-only skill that is not sensitive, with the
upper-cased identifier found in the message as its trigger's argument. -/
def ByTrigger (message : String) (d : RouterDecision) : Prop :=
  ∃ skill ∈ SKILLS, ∃ pattern argument before after m,
    skill.sensitive = false ∧ skill.readsData = true ∧
    skill.trigger = some (pattern, argument) ∧
    message.toList = before ++ (m.text ++ after) ∧
    (all [edge word, pattern, edge word]).matchAt
      { prior := before.getLast?, rest := m.text ++ after } = some m ∧
    d = { route := .tool, tool := some skill.name,
          arguments := [(argument, .str (String.ofList (host.upper m.text)))] }

structure Bounded (loads : List Char → Option Value) (message : String) (reply : Option String)
    (d : RouterDecision) : Prop where
  registered : d.route = .tool → ∃ skill ∈ SKILLS, d.tool = some skill.name
  /-- a word of the message is a whole run of letters of its lower-cased text -/
  recorded : d.route = .tool → ∀ skill ∈ SKILLS, d.tool = some skill.name →
    skill.namesRecord ≠ [] →
    ∃ w ∈ skill.namesRecord, Whole isLowerAz w.toList (host.lower message.toList)
  valid : Asked host word message → d.route = .tool → ∀ skill ∈ SKILLS,
    d.tool = some skill.name → skill.readsData = true →
    ∃ args, skill.argsModel.validate host (.obj d.arguments) = .ok args
  triggered : smallTalk message = false → triggeredSkill host word message ≠ none →
    ByTrigger host word message d
  unread : Asked host word message →
    (∀ text members, reply = some text → objectIn loads text = some (.obj members) →
      ¬ Known members) →
    d = .bare .knowledge

variable {host word}

theorem findSkill_name : ∀ skill ∈ SKILLS, findSkill skill.name = some skill := by
  intro skill mem
  simp only [SKILLS, TOOLS, List.map_cons, List.map_nil, List.mem_cons, List.not_mem_nil,
    or_false] at mem
  rcases mem with rfl | rfl | rfl | rfl | rfl <;> rfl

theorem mem_of_findSkill {tool : String} {skill : Skill} (found : findSkill tool = some skill) :
    skill ∈ SKILLS ∧ skill.name = tool :=
  ⟨List.mem_of_find?_eq_some found, by simpa using List.find?_some found⟩

/-- A record word is found only where it is a whole word. -/
theorem whole_of_asksForRecord {message : String} {skill : Skill} (mem : skill ∈ SKILLS)
    (names : skill.namesRecord ≠ []) (asks : asksForRecord host skill.name message = true) :
    ∃ w ∈ skill.namesRecord, Whole isLowerAz w.toList (host.lower message.toList) := by
  rw [asksForRecord, findSkill_name skill mem] at asks
  simp only [Bool.or_eq_true, List.isEmpty_iff, names, false_or, List.any_eq_true,
    List.contains_iff_mem] at asks
  obtain ⟨w, inNames, found⟩ := asks
  obtain ⟨m, inMatches, text⟩ := List.mem_map.mp found
  exact ⟨w, inNames, text ▸ findAll_runs inMatches⟩

theorem accepts_of_not_invalid {tool : String} {skill : Skill} {arguments : Members}
    (found : findSkill tool = some skill) (reads : skill.readsData = true)
    (valid : readsWithInvalidArguments host tool arguments = false) :
    ∃ args, skill.argsModel.validate host (.obj arguments) = .ok args := by
  rw [readsWithInvalidArguments, found] at valid
  simp only [reads, Bool.true_and] at valid
  cases checked : skill.argsModel.validate host (.obj arguments) with
  | ok args => exact ⟨args, rfl⟩
  | error errors =>
      rw [checked] at valid
      cases valid

/-- A decision is kept when its tool passes the test, or replaced by one without a tool. -/
theorem overrule_cases (d : RouterDecision) (when_ : String → Bool) (instead : Route) :
    (d.overrule when_ instead = d ∧
      ∀ tool, d.route = .tool → d.tool = some tool → when_ tool = false) ∨
    d.overrule when_ instead = .bare instead := by
  unfold RouterDecision.overrule
  cases route : d.route with
  | smallTalk | knowledge | refuse => exact .inl ⟨rfl, nofun⟩
  | tool =>
      cases named : d.tool with
      | none => exact .inl ⟨rfl, nofun⟩
      | some tool =>
          by_cases bad : when_ tool = true
          · exact .inr (if_pos bad)
          · refine .inl ⟨if_neg bad, fun other _ same => ?_⟩
            cases same
            simpa using bad

/-- **A model's decision comes out as it was, with a tool that passes the checks, or without
a tool.** -/
theorem checked_cases (message : String) (d : RouterDecision) :
    (checked host message d = d ∧ ∀ tool, d.route = .tool → d.tool = some tool →
      asksForRecord host tool message = true ∧
      ((findSkill tool).any Skill.readsData && asksForUnsupportedAction host message) = false ∧
      readsWithInvalidArguments host tool d.arguments = false) ∨
    checked host message d = .bare .knowledge ∨ checked host message d = .bare .refuse := by
  unfold checked
  rcases overrule_cases d (fun tool => !asksForRecord host tool message) .knowledge with
    ⟨same, asks⟩ | replaced
  · rw [same]
    by_cases rules : d.route = .refuse ∧ asksAboutRules host message = true
    · simp only [if_pos rules]
      exact .inr (.inl rfl)
    · simp only [if_neg rules]
      rcases overrule_cases d (fun tool => ((findSkill tool).any Skill.readsData) &&
          asksForUnsupportedAction host message) .refuse with ⟨same, able⟩ | replaced
      · rw [same]
        rcases overrule_cases d (fun tool => readsWithInvalidArguments host tool d.arguments)
          .knowledge with ⟨same, valid⟩ | replaced
        · left
          refine ⟨same, fun tool route here => ⟨?_, able tool route here, valid tool route here⟩⟩
          simpa using asks tool route here
        · exact .inr (.inl replaced)
      · rw [replaced]
        exact .inr (.inr rfl)
  · rw [replaced]
    exact .inr (.inl rfl)

/-- The object cut out of a reply begins with its brace. -/
theorem head_of_object {text : List Char} {m : Match} (found : OBJECT.search text = some m) :
    m.text.head? = some '\x7b' := by
  obtain ⟨_, _, _, matched⟩ := findAll_occurs (List.mem_of_head? found)
  exact matchAt_seq_char matched

/-- The documented behaviour of the JSON reader: a text that begins with a brace is an object
or no JSON. -/
def ReadsObjects (loads : List Char → Option Value) : Prop :=
  ∀ text v, text.head? = some '\x7b' → loads text = some v → ∃ members, v = .obj members

/-- A reply says a route and a tool the router knows, or it is read as a question for the
documents. -/
theorem parseDecision_cases {loads : List Char → Option Value} (law : ReadsObjects loads)
    (text : String) :
    (∃ members, objectIn loads text = some (.obj members) ∧ Known members ∧
      ∃ d, parseDecision loads text = some d ∧
        (d.route = .tool → ∃ tool, d.tool = some tool ∧ (findSkill tool).isSome)) ∨
    parseDecision loads text = some (.bare .knowledge) := by
  cases held : objectIn loads text with
  | none =>
      right
      rw [parseDecision, held]
  | some v =>
      obtain ⟨m, found, reads⟩ := Option.bind_eq_some_iff.mp held
      obtain ⟨members, rfl⟩ := law m.text v (head_of_object found) reads
      rw [parseDecision, held]
      dsimp only
      split
      · next refuses => exact .inl ⟨members, rfl, .inl refuses, _, rfl, nofun⟩
      · next chooses =>
          split
          · next tool names =>
              by_cases known : (findSkill tool).isSome
              · rw [if_pos known]
                exact .inl ⟨members, rfl, .inr ⟨chooses, tool, names, known⟩, _, rfl,
                  fun _ => ⟨tool, rfl, known⟩⟩
              · rw [if_neg known]
                exact .inr rfl
          · exact .inr rfl
      · exact .inr rfl

/-- A skill that claims a message does so by what its trigger finds there. -/
theorem Skill.claims_found {skill : Skill} {message : String} {claimed : String × Members}
    (claims : skill.claims host word message = some claimed) :
    ∃ pattern argument before after m, skill.sensitive = false ∧ skill.readsData = true ∧
      skill.trigger = some (pattern, argument) ∧ message.toList = before ++ (m.text ++ after) ∧
      (all [edge word, pattern, edge word]).matchAt
        { prior := before.getLast?, rest := m.text ++ after } = some m ∧
      claimed = (skill.name, [(argument, .str (String.ofList (host.upper m.text)))]) := by
  rw [Skill.claims] at claims
  cases trigger : skill.trigger with
  | none =>
      rw [trigger] at claims
      cases claims
  | some named =>
      obtain ⟨pattern, argument⟩ := named
      rw [trigger] at claims
      dsimp only at claims
      by_cases barred : (skill.sensitive || !skill.readsData) = true
      · rw [if_pos barred] at claims
        cases claims
      · rw [if_neg barred] at claims
        obtain ⟨m, found, rfl⟩ := Option.map_eq_some_iff.mp claims
        obtain ⟨before, after, shape, matched⟩ := findAll_occurs (List.mem_of_head? found)
        simp only [Bool.or_eq_true, Bool.not_eq_true', not_or, Bool.not_eq_true,
          Bool.not_eq_false] at barred
        exact ⟨pattern, argument, before, after, m, barred.1, barred.2, rfl, shape, matched, rfl⟩

/-- The skill a message names claims it. -/
theorem claims_of_triggered {message : String} {claimed : String × Members}
    (found : triggeredSkill host word message = some claimed) :
    ∃ skill ∈ SKILLS, skill.claims host word message = some claimed := by
  rw [triggeredSkill] at found
  split at found
  · next only =>
      cases found
      have mem : claimed ∈ SKILLS.filterMap fun skill => skill.claims host word message := by
        rw [only]
        exact List.mem_singleton.mpr rfl
      exact List.mem_filterMap.mp mem
  · cases found

theorem byTrigger_of_triggered {message tool : String} {found : Members}
    (claimed : triggeredSkill host word message = some (tool, found)) :
    ByTrigger host word message { route := .tool, tool := some tool, arguments := found } := by
  obtain ⟨skill, mem, claims⟩ := claims_of_triggered claimed
  obtain ⟨pattern, argument, before, after, m, plain, reads, trigger, shape, matched, same⟩ :=
    Skill.claims_found claims
  cases same
  exact ⟨skill, mem, pattern, argument, before, after, m, plain, reads, trigger, shape, matched,
    rfl⟩

/-- No skill that reads creates a record. -/
theorem namesRecord_of_readsData : ∀ skill ∈ SKILLS, skill.readsData = true →
    skill.namesRecord = [] := by
  intro skill mem
  simp only [SKILLS, TOOLS, List.map_cons, List.map_nil, List.mem_cons, List.not_mem_nil,
    or_false] at mem
  rcases mem with rfl | rfl | rfl | rfl | rfl <;> decide

/-- A skill is known by its name. -/
theorem skill_unique {skill other : Skill} (mem : skill ∈ SKILLS) (mem' : other ∈ SKILLS)
    (same : skill.name = other.name) : skill = other := by
  have one := findSkill_name skill mem
  rw [same, findSkill_name other mem'] at one
  exact (Option.some.inj one).symm

/-- A decision without a tool is bounded where it is not the answer to an identifier. -/
theorem bounded_bare {loads : List Char → Option Value} {message : String}
    {reply : Option String} {route : Route} (noTool : route ≠ .tool)
    (untriggered : smallTalk message = false → triggeredSkill host word message = none)
    (unread : Asked host word message →
      (∀ text members, reply = some text → objectIn loads text = some (.obj members) →
        ¬ Known members) → route = .knowledge) :
    Bounded host word loads message reply (.bare route) where
  registered isTool := absurd isTool noTool
  recorded isTool := absurd isTool noTool
  valid _ isTool := absurd isTool noTool
  triggered plain named := absurd (untriggered plain) named
  unread asked nothing := by rw [unread asked nothing]

theorem bounded_trigger {loads : List Char → Option Value} {message : String}
    {reply : Option String} {d : RouterDecision}
    (named : triggeredSkill host word message ≠ none) (by_ : ByTrigger host word message d) :
    Bounded host word loads message reply d where
  registered _ := by
    obtain ⟨skill, mem, _, _, _, _, _, _, _, _, _, _, rfl⟩ := by_
    exact ⟨skill, mem, rfl⟩
  recorded _ other mem' same names := by
    obtain ⟨skill, mem, _, _, _, _, _, _, reads, _, _, _, rfl⟩ := by_
    have unique := skill_unique mem mem' (Option.some.inj same)
    rw [← unique] at names
    exact absurd (namesRecord_of_readsData skill mem reads) names
  valid asked := absurd asked.2 named
  triggered _ _ := by_
  unread asked := absurd asked.2 named

/-- **A model's decision is bounded by the checks that follow it.** -/
theorem bounded_reply {loads : List Char → Option Value} (law : ReadsObjects loads)
    {message : String} (asked : Asked host word message) (text : String) :
    ∃ d, (parseDecision loads text).map (checked host message) = some d ∧
      Bounded host word loads message (some text) d := by
  have untriggered : smallTalk message = false → triggeredSkill host word message = none :=
    fun _ => asked.2
  rcases parseDecision_cases law text with ⟨members, held, known, d, parsed, isTool⟩ | parsed
  · -- what the model said is kept with its tool, or replaced by a route without one
    have read : ¬ ∀ text' members, some text = some text' →
        objectIn loads text' = some (.obj members) → ¬ Known members :=
      fun nothing => nothing text members rfl held known
    rw [parsed]
    refine ⟨_, rfl, ?_⟩
    rcases @checked_cases host message d with ⟨same, passes⟩ | toDocuments | toRefusal
    · rw [same]
      refine ⟨fun route => ?_, fun route skill mem names words => ?_,
        fun _ route skill mem names reads => ?_, fun _ named => absurd asked.2 named,
        fun _ nothing => absurd nothing read⟩
      · obtain ⟨tool, names, known⟩ := isTool route
        obtain ⟨skill, found⟩ := Option.isSome_iff_exists.mp known
        obtain ⟨mem, rfl⟩ := mem_of_findSkill found
        exact ⟨skill, mem, names⟩
      · exact whole_of_asksForRecord mem words (passes skill.name route names).1
      · exact accepts_of_not_invalid (findSkill_name skill mem) reads
          (passes skill.name route names).2.2
    · rw [toDocuments]
      exact bounded_bare nofun untriggered fun _ _ => rfl
    · rw [toRefusal]
      exact bounded_bare nofun untriggered fun _ nothing => absurd nothing read
  · rw [parsed]
    refine ⟨_, rfl, ?_⟩
    show Bounded host word loads message (some text) (.bare .knowledge)
    exact bounded_bare nofun untriggered fun _ _ => rfl

/-- **The router cannot act on its own.** -/
theorem decision_bounded (host : Host) (word : Char → Bool) (loads : List Char → Option Value)
    (law : ReadsObjects loads) (message : String) (reply : Option String) :
    ∃ d, classify host word loads message reply = some d ∧
      Bounded host word loads message reply d := by
  rw [classify.eq_def]
  by_cases social : smallTalk message = true
  · rw [if_pos social]
    have talk : smallTalk message ≠ false := by simp [social]
    exact ⟨_, rfl, bounded_bare nofun (fun plain => absurd plain talk)
      fun asked => absurd asked.1 talk⟩
  · have plain : smallTalk message = false := by simpa using social
    rw [if_neg social]
    cases claimed : triggeredSkill host word message with
    | some named =>
        exact ⟨_, rfl, bounded_trigger (by simp [claimed]) (byTrigger_of_triggered claimed)⟩
    | none =>
        cases reply with
        | none => exact ⟨_, rfl, bounded_bare nofun (fun _ => claimed) fun _ _ => rfl⟩
        | some text => exact bounded_reply law ⟨plain, claimed⟩ text

/-! ## Poles -/

/-- A reply that chooses a status read. -/
def statusReply : String :=
  "\x7b\"route\": \"tool\", \"tool\": \"get_server_status\", " ++
    "\"arguments\": \x7b\"server_id\": \"web-1\"\x7d\x7d"

/-- A reader that knows this reply. -/
def loadsStatus (text : List Char) : Option Value :=
  if text = statusReply.toList then
    some (.obj [("route", .str "tool"), ("tool", .str "get_server_status"),
      ("arguments", .obj [("server_id", .str "web-1")])])
  else none

/-- The read is chosen from prose around the object, and it is bounded. -/
theorem decision_bounded_pole :
    ((classify Host.plain plainWord loadsStatus "How is web-1 doing?"
      (some ("Sure: " ++ statusReply ++ "."))).bind RouterDecision.tool) =
        some "get_server_status" ∧
    ∃ d, classify Host.plain plainWord loadsStatus "How is web-1 doing?"
        (some ("Sure: " ++ statusReply ++ ".")) = some d ∧
      Bounded Host.plain plainWord loadsStatus "How is web-1 doing?"
        (some ("Sure: " ++ statusReply ++ ".")) d := by
  refine ⟨by decide +kernel, decision_bounded Host.plain plainWord loadsStatus ?_ _ _⟩
  intro text v _ reads
  rw [loadsStatus] at reads
  by_cases known : text = statusReply.toList
  · rw [if_pos known] at reads
    cases reads
    exact ⟨_, rfl⟩
  · rw [if_neg known] at reads
    cases reads

end OpsAssist.Router
