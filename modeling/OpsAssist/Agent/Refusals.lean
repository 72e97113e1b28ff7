/-
# OpsAssist.Agent.Refusals -- instructions and questions that come out wrong

Two checks on a model's decision look at the form of the message: a read that is chosen for an
instruction becomes a refusal, and the refusal of a question about the rules a search in the
documents.

An identifier claims a message before any check, so an instruction is answered with a read just
when it names a ticket (`instruction_never_read_iff`; pole: `instruction_read`).  The check that
refuses runs behind the one that takes a refusal back, so a question about the rules is refused
just when it is also an instruction for which the model chose a read (`rules_never_refused_iff`;
pole: `question_refused`).
-/
import OpsAssist.Agent.Router

namespace OpsAssist.Router

set_option autoImplicit false

open Theory

/-- The decision is a read-only skill. -/
def Reads (d : RouterDecision) : Prop :=
  d.route = .tool ∧ ∃ tool skill, d.tool = some tool ∧ findSkill tool = some skill ∧
    skill.readsData = true

/-- The model's reply chooses a read-only skill. -/
def ChoosesRead (loads : List Char → Option Value) (reply : Option String) : Prop :=
  ∃ text d, reply = some text ∧ parseDecision loads text = some d ∧ Reads d

theorem not_reads_bare {route : Route} : ¬Reads (.bare route) := by
  rintro ⟨-, tool, skill, named, -⟩
  cases named

section

variable {host : Host} {word : Char → Bool} {message : String}

theorem reads_of_triggered {tool : String} {found : Members}
    (claimed : triggeredSkill host word message = some (tool, found)) :
    Reads { route := .tool, tool := some tool, arguments := found } := by
  obtain ⟨skill, mem, _, _, _, _, _, _, reads, _, _, _, same⟩ := byTrigger_of_triggered claimed
  cases same
  exact ⟨rfl, skill.name, skill, rfl, findSkill_name skill mem, reads⟩

/-- No read is left for an instruction. -/
theorem not_reads_checked (instructs : asksForUnsupportedAction host message = true)
    (d : RouterDecision) : ¬Reads (checked host message d) := by
  rcases @checked_cases host message d with ⟨same, passes⟩ | toDocuments | toRefusal
  · rw [same]
    rintro ⟨route, tool, skill, named, found, reads⟩
    have able := (passes tool route named).2.1
    simp [found, reads, instructs] at able
  · rw [toDocuments]
    exact not_reads_bare
  · rw [toRefusal]
    exact not_reads_bare

end

/-- **An instruction to change a system is answered with a read just when it names a ticket.** -/
theorem instruction_never_read_iff (host : Host) (word : Char → Bool)
    (loads : List Char → Option Value) (message : String) (reply : Option String)
    (instructs : asksForUnsupportedAction host message = true) :
    (∀ d, classify host word loads message reply = some d → ¬Reads d) ↔
      smallTalk message = true ∨ triggeredSkill host word message = none := by
  rw [classify.eq_def]
  by_cases social : smallTalk message = true
  · rw [if_pos social]
    refine iff_of_true (fun d decided => ?_) (.inl social)
    cases decided
    exact not_reads_bare
  · rw [if_neg social]
    cases claimed : triggeredSkill host word message with
    | some named =>
        refine iff_of_false (fun never => never _ rfl (reads_of_triggered claimed)) ?_
        simp [social]
    | none =>
        refine iff_of_true (fun d decided => ?_) (.inr rfl)
        cases reply with
        | none =>
            cases decided
            exact not_reads_bare
        | some text =>
            obtain ⟨parsed, -, rfl⟩ := Option.map_eq_some_iff.mp decided
            exact not_reads_checked instructs parsed

/-! ## Questions about the rules -/

section

variable {host : Host} {message : String}

/-- A decision without the route of a tool is not overruled for its tool. -/
theorem overrule_plain {d : RouterDecision} (when_ : String → Bool) (instead : Route)
    (plain : d.route ≠ .tool) : d.overrule when_ instead = d := by
  unfold RouterDecision.overrule
  cases route : d.route with
  | tool => exact absurd route plain
  | _ => rfl

theorem overrule_named {d : RouterDecision} {tool : String} (when_ : String → Bool)
    (instead : Route) (route : d.route = .tool) (named : d.tool = some tool) :
    d.overrule when_ instead = if when_ tool then .bare instead else d := by
  unfold RouterDecision.overrule
  rw [route, named]

theorem overrule_unnamed {d : RouterDecision} (when_ : String → Bool) (instead : Route)
    (unnamed : d.tool = none) : d.overrule when_ instead = d := by
  unfold RouterDecision.overrule
  rw [unnamed]
  cases d.route <;> rfl

/-- What is not a tool is not refused, once the message is a question about the rules. -/
theorem checked_plain (asks : asksAboutRules host message = true) {d : RouterDecision}
    (plain : d.route ≠ .tool) : (checked host message d).route ≠ .refuse := by
  unfold checked
  rw [overrule_plain _ _ plain]
  by_cases refused : d.route = .refuse
  · simp only [refused, asks, and_self, if_true]
    rw [overrule_unnamed _ _ rfl, overrule_unnamed _ _ rfl]
    exact fun same => by cases same
  · simp only [refused, false_and, if_false]
    rw [overrule_plain _ _ plain, overrule_plain _ _ plain]
    exact refused

/-- A read asks for no record. -/
theorem asksForRecord_of_reads {tool : String} {skill : Skill}
    (found : findSkill tool = some skill) (reads : skill.readsData = true) :
    asksForRecord host tool message = true := by
  have names := namesRecord_of_readsData skill (mem_of_findSkill found).1 reads
  rw [asksForRecord, found]
  simp [names]

/-- A tool is refused just when it is a read and the message an instruction. -/
theorem checked_tool_refused_iff {d : RouterDecision} (route : d.route = .tool) :
    (checked host message d).route = .refuse ↔
      Reads d ∧ asksForUnsupportedAction host message = true := by
  have other : d.route ≠ .refuse := by simp [route]
  unfold checked
  cases named : d.tool with
  | none =>
      rw [overrule_unnamed _ _ named]
      simp only [other, false_and, if_false]
      rw [overrule_unnamed _ _ named, overrule_unnamed _ _ named]
      refine iff_of_false other ?_
      rintro ⟨⟨-, tool, skill, there, -⟩, -⟩
      simp [named] at there
  | some tool =>
      rw [overrule_named _ _ route named]
      cases asked : asksForRecord host tool message with
      | false =>
          simp only [Bool.not_false, if_true, RouterDecision.bare, reduceCtorEq, false_and, if_false]
          rw [overrule_unnamed _ _ rfl, overrule_unnamed _ _ rfl]
          refine iff_of_false (fun same => by cases same) ?_
          rintro ⟨⟨-, tool', skill, there, found, reads⟩, -⟩
          cases named.symm.trans there
          simp [asksForRecord_of_reads found reads] at asked
      | true =>
          simp only [Bool.not_true, Bool.false_eq_true, if_false, other, false_and]
          rw [overrule_named _ _ route named]
          by_cases able : ((findSkill tool).any Skill.readsData &&
              asksForUnsupportedAction host message) = true
          · rw [if_pos able]
            simp only [Bool.and_eq_true, Option.any_eq_true] at able
            obtain ⟨⟨skill, found, reads⟩, instructs⟩ := able
            rw [overrule_unnamed _ _ rfl]
            exact iff_of_true rfl ⟨⟨route, tool, skill, named, found, reads⟩, instructs⟩
          · rw [if_neg able, overrule_named _ _ route named]
            refine iff_of_false ?_ ?_
            · split
              · exact fun same => by cases same
              · exact other
            · rintro ⟨⟨-, tool', skill, there, found, reads⟩, instructs⟩
              cases named.symm.trans there
              exact able (by simp [found, reads, instructs])

end

/-- **A question about the rules is refused just when it is an instruction as well and the model
chose a read for it**, where nothing else decides. -/
theorem rules_never_refused_iff (host : Host) (word : Char → Bool)
    (loads : List Char → Option Value) (message : String) (reply : Option String)
    (asks : asksAboutRules host message = true) :
    (∀ d, classify host word loads message reply = some d → d.route ≠ .refuse) ↔
      smallTalk message = true ∨ triggeredSkill host word message ≠ none ∨
        asksForUnsupportedAction host message = false ∨ ¬ChoosesRead loads reply := by
  rw [classify.eq_def]
  by_cases social : smallTalk message = true
  · rw [if_pos social]
    refine iff_of_true (fun d decided => ?_) (.inl social)
    cases decided
    exact fun same => by cases same
  · rw [if_neg social]
    cases claimed : triggeredSkill host word message with
    | some named =>
        refine iff_of_true (fun d decided => ?_) (.inr (.inl (Option.some_ne_none _)))
        cases decided
        exact fun same => by cases same
    | none =>
        cases reply with
        | none =>
            refine iff_of_true (fun d decided => ?_) (.inr (.inr (.inr ?_)))
            · cases decided
              exact fun same => by cases same
            · rintro ⟨text, d, there, -⟩
              cases there
        | some text =>
            simp only [social, Ne, not_true_eq_false, false_or, Bool.false_eq_true]
            cases parsed : parseDecision loads text with
            | none =>
                refine iff_of_true (fun _ same => by cases same) (.inr ?_)
                rintro ⟨text', d, same, there, -⟩
                cases same
                simp [parsed] at there
            | some d =>
                have chosen : ChoosesRead loads (some text) ↔ Reads d := by
                  constructor
                  · rintro ⟨text', d', same, there, reads⟩
                    cases same
                    cases parsed.symm.trans there
                    exact reads
                  · exact fun reads => ⟨text, d, rfl, parsed, reads⟩
                rw [chosen]
                simp only [Option.map_some, Option.some.injEq, forall_eq']
                by_cases route : d.route = .tool
                · rw [checked_tool_refused_iff route]
                  cases instructs : asksForUnsupportedAction host message <;> simp
                · refine iff_of_true (checked_plain asks route) (.inr ?_)
                  exact fun reads => route reads.1

/-! ## Poles -/

/-- An instruction that names a ticket is answered with the ticket. -/
theorem instruction_read :
    asksForUnsupportedAction Host.plain "Restart it, see INC-12" = true ∧
      ¬∀ d, classify Host.plain plainWord loadsStatus "Restart it, see INC-12" none = some d →
        ¬Reads d := by
  have claimed : triggeredSkill Host.plain plainWord "Restart it, see INC-12" =
      some ("get_support_ticket", [("ticket_id", .str "INC-12")]) := by
    rfl
  have social : smallTalk "Restart it, see INC-12" = false := by decide +kernel
  refine ⟨by decide +kernel, fun never => ?_⟩
  refine never _ ?_ (reads_of_triggered claimed)
  rw [classify.eq_def, social, claimed]
  rfl

/-- The same instruction without a ticket is not. -/
theorem instruction_never_read_pole :
    asksForUnsupportedAction Host.plain "Restart web-1" = true ∧
      ∀ d, classify Host.plain plainWord loadsStatus "Restart web-1" (some statusReply) = some d →
        ¬Reads d := by
  have instructs : asksForUnsupportedAction Host.plain "Restart web-1" = true := by decide +kernel
  refine ⟨instructs, ?_⟩
  exact (instruction_never_read_iff Host.plain plainWord loadsStatus "Restart web-1"
    (some statusReply) instructs).mpr (.inr (by decide +kernel))

/-- A question that begins with a verb is refused. -/
theorem question_refused :
    asksAboutRules Host.plain "Restart web-1?" = true ∧
      ¬∀ d, classify Host.plain plainWord loadsStatus "Restart web-1?" (some statusReply) =
        some d → d.route ≠ .refuse := by
  have refused : (classify Host.plain plainWord loadsStatus "Restart web-1?"
      (some statusReply)).map RouterDecision.route = some .refuse := by decide +kernel
  refine ⟨by decide +kernel, fun never => ?_⟩
  obtain ⟨d, decided, route⟩ := Option.map_eq_some_iff.mp refused
  exact never d decided route

/-- A question that does not is never refused. -/
theorem rules_never_refused_pole :
    asksAboutRules Host.plain "Who may restart web-1?" = true ∧
      ∀ d, classify Host.plain plainWord loadsStatus "Who may restart web-1?" (some statusReply) =
        some d → d.route ≠ .refuse := by
  have asks : asksAboutRules Host.plain "Who may restart web-1?" = true := by decide +kernel
  refine ⟨asks, ?_⟩
  exact (rules_never_refused_iff Host.plain plainWord loadsStatus "Who may restart web-1?"
    (some statusReply) asks).mpr (.inr (.inr (.inl (by decide +kernel))))

end OpsAssist.Router
