/-
# OpsAssist.Tools.Tickets -- support tickets over a whole run of calls

`create_support_ticket` looks for a ticket under the digest of its four values joined with
bars.  The ticket it finds there is the first one ever filed under that text
(`Indexed.keyed`): later ones carry a suffix.  Two things follow from that.

* `idempotent_iff`: a repetition within ten minutes gets its ticket back exactly when that
  first ticket is itself of the ten minutes, and of the same four values.
* `no_swallow_iff`: a call is answered with the ticket of a different request exactly when
  that first ticket is of the ten minutes and of other values, which bars in the values
  make possible (`TicketRequest.text_iff`).

Poles: `repeated_after_lapse`, `swallowed_by_bars`.
-/
import OpsAssist.Policy.AuditRecord
import OpsAssist.Theory.Fields
import OpsAssist.Theory.PrefixCode
import OpsAssist.Theory.Run
import OpsAssist.Tools.Executor

namespace OpsAssist.Tickets

set_option autoImplicit false

open Theory

variable (host : Host)

/-! ## Requests -/

/-- The four values that identify a request. -/
structure TicketRequest where
  userId : String
  title : String
  severity : Severity
  details : String
deriving DecidableEq

namespace TicketRequest

/-- `key_source` -/
def text (r : TicketRequest) : String :=
  r.userId ++ "|" ++ r.title ++ "|" ++ r.severity.text ++ "|" ++ r.details

/-- The user and the title, with the bar between them. -/
def userAndTitle (r : TicketRequest) : List Char := r.userId.toList ++ '|' :: r.title.toList

/-- The user and title of the second request hold the severity of the first too, and the
first one's details hold the rest of the second. -/
def RunsOver (r r' : TicketRequest) : Prop :=
  Straddles '|' r.userAndTitle r.severity.text.toList r.details.toList
    r'.userAndTitle r'.severity.text.toList r'.details.toList

/-- Two requests whose values differ at most in where bars stand. -/
def Alike (r r' : TicketRequest) : Prop :=
  (r.userAndTitle = r'.userAndTitle ∧ r.severity = r'.severity ∧ r.details = r'.details) ∨
    RunsOver r r' ∨ RunsOver r' r

theorem text_toList (r : TicketRequest) : r.text.toList =
    r.userAndTitle ++ '|' :: (r.severity.text.toList ++ '|' :: r.details.toList) := by
  simp [text, userAndTitle]

theorem severity_free (severity : Severity) : '|' ∉ severity.text.toList := by
  cases severity <;> simp [Severity.text]

theorem severity_text_injective : ∀ {s t : Severity}, s.text = t.text → s = t := by
  intro s t
  cases s <;> cases t <;> decide

theorem text_iff (r r' : TicketRequest) : r.text = r'.text ↔ Alike r r' := by
  rw [← String.toList_inj, text_toList, text_toList,
    fields_eq_iff (severity_free _) (severity_free _), String.toList_inj, String.toList_inj]
  refine or_congr_left (and_congr_right fun _ => and_congr_left fun _ => ?_)
  exact ⟨severity_text_injective, congrArg Severity.text⟩

/-- No bar stands in the user id or the title. -/
def NoBars (r : TicketRequest) : Prop := '|' ∉ r.userId.toList ∧ '|' ∉ r.title.toList

theorem not_runsOver {r r' : TicketRequest} (plain : NoBars r) (plain' : NoBars r') :
    ¬RunsOver r r' := by
  rintro ⟨rest, longer, -⟩
  simp only [userAndTitle, List.append_assoc, List.cons_append] at longer
  rcases mark_cases longer with ⟨-, title⟩ | ⟨z, user, -⟩ | ⟨z, user, -⟩
  · exact plain'.2 (title ▸ by simp)
  · exact plain.1 (user ▸ by simp)
  · exact plain'.1 (user ▸ by simp)

/-- Without bars in user ids and titles, requests alike are the same. -/
theorem alike_iff_of_noBars {r r' : TicketRequest} (plain : NoBars r) (plain' : NoBars r') :
    Alike r r' ↔ r = r' := by
  constructor
  · rintro (⟨front, severity, details⟩ | past | past)
    · obtain ⟨user, title⟩ : r.userId = r'.userId ∧ r.title = r'.title := by
        rcases mark_cases front with ⟨user, title⟩ | ⟨z, user, -⟩ | ⟨z, user, -⟩
        · exact ⟨String.toList_injective user, String.toList_injective title⟩
        · exact absurd (user ▸ by simp) plain'.1
        · exact absurd (user ▸ by simp) plain.1
      cases r
      cases r'
      simp_all
    · exact absurd past (not_runsOver plain plain')
    · exact absurd past (not_runsOver plain' plain)
  · rintro rfl
    exact .inl ⟨rfl, rfl, rfl⟩

end TicketRequest

/-! ## Runs of calls -/

/-- One call with what it takes from outside. -/
structure TicketCall where
  env : Env
  principal : Principal
  title : String
  severity : Severity
  details : String
  userMessage : Option String := none

def TicketCall.request (c : TicketCall) : TicketRequest where
  userId := c.principal.userId
  title := c.title
  severity := c.severity
  details := c.details

def TicketCall.run (c : TicketCall) : Tx Handled :=
  createSupportTicket host c.env c.principal c.title c.severity c.details c.userMessage

/-- The handler of the tool is such a call. -/
theorem handle_eq_run (env : Env) (principal : Principal) (title : String) (severity : Severity)
    (details : String) (ctx : ToolContext) :
    handle host env principal (.createSupportTicket title severity details) ctx =
      TicketCall.run host
        { env, principal, title, severity, details, userMessage := ctx.userMessage } := rfl

/-- A ticket and the request it was created for. -/
structure Filed where
  request : TicketRequest
  ticket : Ticket

/-- The database, and beside it what was asked for with each of its tickets. -/
structure Desk where
  db : Db
  filed : List Filed

namespace Desk

/-- One call as a transaction; what it adds is filed under its request. -/
def call (desk : Desk) (c : TicketCall) : Desk :=
  match c.run host desk.db with
  | .error _ => desk
  | .ok (_, db) =>
      { db
        filed := desk.filed ++
          (db.tickets.drop desk.db.tickets.length).map fun t => { request := c.request, ticket := t } }

/-- Before the first call. -/
def opened (db : Db) : Desk := { db := { db with tickets := [] }, filed := [] }

/-- The first ticket filed under the text of a request. -/
def first (desk : Desk) (r : TicketRequest) : Option Filed :=
  desk.filed.find? fun f => f.request.text == r.text

end Desk

def digest (r : TicketRequest) : String := host.sha256 r.text

/-- What the digest is relied on for: it has no collisions, and a digest with a suffix is no
digest. -/
structure Digests : Prop where
  free : CollisionFree host
  apart : ∀ s t suffix, host.sha256 s ≠ host.sha256 t ++ (":" ++ suffix)

/-- The answer to a repetition. -/
def duplicateOf (t : Ticket) : Value :=
  .obj [("ticket_id", .str t.id), ("status", .str t.status), ("duplicate", .bool true)]

/-- Created less than the window before the call. -/
def Recent (c : TicketCall) (f : Filed) : Prop :=
  c.env.now - f.ticket.createdAt < TICKET_IDEMPOTENCY_WINDOW

instance (c : TicketCall) (f : Filed) : Decidable (Recent c f) := inferInstanceAs (Decidable (_ < _))

/-- The tickets of a desk are the filed ones, and the digest of a text finds the first one
filed under it. -/
structure Indexed (desk : Desk) : Prop where
  tickets : desk.db.tickets = desk.filed.map Filed.ticket
  ids : (desk.filed.map fun f => f.ticket.id).Nodup
  keyed : ∀ r, (desk.db.tickets.find? fun t => t.idempotencyKey == digest host r) =
    (desk.first r).map Filed.ticket

/-! ## One call -/

/-- The answer with a new ticket. -/
def createdOf (t : Ticket) : Value :=
  .obj [("ticket_id", .str t.id), ("title", .str t.title), ("severity", .str t.severity),
    ("status", .str t.status), ("details", .str t.details)]

/-- What a call that does not find a recent ticket does to the database. -/
inductive Inserted (r : TicketRequest) (first : Option Filed) (db : Db) :
    Except Raised (Handled × Db) → Prop where
  | refused : Inserted r first db (.error .database)
  | created (t : Ticket) (fresh : ∀ other ∈ db.tickets, other.id ≠ t.id)
      (key : (first = none ∧ t.idempotencyKey = digest host r) ∨
        (first.isSome ∧ ∃ suffix, t.idempotencyKey = digest host r ++ (":" ++ suffix))) :
      Inserted r first db (.ok (.ok (createdOf t), { db with tickets := db.tickets ++ [t] }))

variable {host} {desk : Desk} {c : TicketCall}

theorem inserted_of {r : TicketRequest} {first : Option Filed} {db : Db} {t : Ticket}
    (key : (first = none ∧ t.idempotencyKey = digest host r) ∨
      (first.isSome ∧ ∃ suffix, t.idempotencyKey = digest host r ++ (":" ++ suffix))) :
    Inserted host r first db
      ((Db.insertTicket t >>= fun _ => (pure (.ok (createdOf t)) : Tx Handled)) db) := by
  change Inserted host r first db (Tx.andThen (Db.insertTicket t) _ db)
  unfold Tx.andThen Db.insertTicket
  by_cases fits : db.ticketOk t = true
  · rw [if_pos fits]
    refine .created t ?_ key
    have others := (Bool.and_eq_true_iff.mp fits).2
    intro other mem same
    have apart := List.all_eq_true.mp others other mem
    simp [same] at apart
  · rw [if_neg fits]
    exact .refused

theorem inserted_value {r : TicketRequest} {first : Option Filed} {db db' : Db} {value : Value}
    (inserted : Inserted host r first db (.ok (.ok value, db'))) : ∃ t, value = createdOf t := by
  generalize shape : Except.ok (Except.ok value, db') = outcome at inserted
  cases inserted with
  | refused => cases shape
  | created t =>
      simp only [Except.ok.injEq, Prod.mk.injEq] at shape
      exact ⟨t, shape.1⟩

/-- **What a call does**: it finds the first ticket of its text recent, or inserts. -/
theorem run_cases (indexed : Indexed host desk) :
    (∃ f, desk.first c.request = some f ∧ Recent c f ∧
      c.run host desk.db = .ok (.ok (duplicateOf f.ticket), desk.db)) ∨
    ((∀ f, desk.first c.request = some f → ¬Recent c f) ∧
      Inserted host c.request (desk.first c.request) desk.db (c.run host desk.db)) := by
  have keyed : (desk.db.tickets.find? fun t => t.idempotencyKey == host.sha256
      (c.principal.userId ++ "|" ++ c.title ++ "|" ++ c.severity.text ++ "|" ++ c.details)) =
      (desk.first c.request).map Filed.ticket := indexed.keyed c.request
  unfold TicketCall.run createSupportTicket
  rw [Tx.read_bind, keyed]
  cases found : desk.first c.request with
  | none => exact .inr ⟨nofun, inserted_of (.inl ⟨rfl, rfl⟩)⟩
  | some f =>
      dsimp only [Option.map_some]
      by_cases recent : c.env.now - f.ticket.createdAt < TICKET_IDEMPOTENCY_WINDOW
      · rw [if_pos recent]
        exact .inl ⟨f, rfl, recent, rfl⟩
      · rw [if_neg recent]
        refine .inr ⟨fun g same => Option.some.inj same ▸ recent, inserted_of (.inr ⟨rfl, ?_⟩)⟩
        exact ⟨hexPrefix c.env.uuid, String.append_assoc ..⟩

/-! ## Over a run -/

theorem first_eq_some {r : TicketRequest} {f : Filed} (found : desk.first r = some f) :
    f ∈ desk.filed ∧ f.request.text = r.text :=
  ⟨List.mem_of_find?_eq_some found, by simpa using List.find?_some found⟩

theorem first_append {r : TicketRequest} {f : Filed} {db : Db} :
    Desk.first { db, filed := desk.filed ++ [f] } r =
      (desk.first r).or (if f.request.text = r.text then some f else none) := by
  simp [Desk.first, List.find?_append, List.find?_singleton]

theorem indexed_opened (db : Db) : Indexed host (.opened db) where
  tickets := rfl
  ids := List.nodup_nil
  keyed _ := rfl

/-- The digest of another text finds none of the keys a text is filed under. -/
theorem key_apart (digests : Digests host) {r q : TicketRequest} {first : Option Filed}
    {t : Ticket} (key : (first = none ∧ t.idempotencyKey = digest host r) ∨
      (first.isSome ∧ ∃ suffix, t.idempotencyKey = digest host r ++ (":" ++ suffix))) :
    t.idempotencyKey = digest host q ↔ first = none ∧ r.text = q.text := by
  rcases key with ⟨empty, bare⟩ | ⟨taken, suffix, late⟩
  · rw [bare]
    exact ⟨fun same => ⟨empty, digests.free _ _ same⟩, fun both => congrArg host.sha256 both.2⟩
  · rw [late]
    constructor
    · intro same
      exact absurd same.symm (digests.apart _ _ _)
    · rintro ⟨rfl, -⟩
      cases taken

/-- **One call keeps the index.** -/
theorem indexed_call (digests : Digests host) (indexed : Indexed host desk) :
    Indexed host (desk.call host c) := by
  unfold Desk.call
  rcases run_cases indexed (c := c) with ⟨f, -, -, answered⟩ | ⟨-, inserted⟩
  · rw [answered]
    simpa using indexed
  · generalize c.run host desk.db = outcome at inserted
    cases inserted with
    | refused => exact indexed
    | created t fresh key =>
        have added : (desk.db.tickets ++ [t]).drop desk.db.tickets.length = [t] :=
          List.drop_left
        simp only [added, List.map_singleton]
        refine ⟨?_, ?_, ?_⟩
        · simp [indexed.tickets]
        · rw [List.map_append, List.map_singleton, List.nodup_append]
          refine ⟨indexed.ids, List.nodup_singleton _, ?_⟩
          intro id old other new
          obtain ⟨f, mem, rfl⟩ := List.mem_map.mp old
          rw [List.mem_singleton.mp new]
          exact fresh f.ticket (indexed.tickets ▸ List.mem_map_of_mem mem)
        · intro q
          rw [List.find?_append, indexed.keyed, first_append, List.find?_singleton]
          cases known : desk.first q with
          | some f => rfl
          | none =>
              have both : t.idempotencyKey = digest host q ↔ c.request.text = q.text := by
                rw [key_apart digests key]
                refine ⟨And.right, fun same => ⟨?_, same⟩⟩
                rw [← known]
                simp only [Desk.first, same]
              by_cases same : c.request.text = q.text
              · simp [same, both.mpr same]
              · simp [same, both.not.mpr same]

theorem indexed_run (digests : Digests host) (db : Db) (calls : List TicketCall) :
    Indexed host (calls.foldl (Desk.call host) (.opened db)) := by
  refine (Run.stepOf_iff.mpr rfl).invariant ?_ (indexed_opened db)
  rintro desk c _ rfl indexed
  exact indexed_call digests indexed

/-! ## Repetitions -/

/-- The first of the tickets filed under requests alike. -/
def Earliest (desk : Desk) (r : TicketRequest) (f : Filed) : Prop :=
  f.request.Alike r ∧ ∃ front back, desk.filed = front ++ f :: back ∧
    ∀ g ∈ front, ¬g.request.Alike r

theorem earliest_iff {r : TicketRequest} {f : Filed} :
    Earliest desk r f ↔ desk.first r = some f := by
  unfold Earliest Desk.first
  rw [List.find?_eq_some_iff_append]
  simp [TicketRequest.text_iff]

/-- Whether an answer calls itself a duplicate. -/
def marked : Value → Bool
  | .obj members =>
      match members.lookup "duplicate" with
      | some (.bool b) => b
      | _ => false
  | _ => false

/-- A call answered with an existing ticket asked for the same as that ticket's request. -/
def NotSwallowed (host : Host) (desk : Desk) (c : TicketCall) : Prop :=
  ∀ value db', c.run host desk.db = .ok (.ok value, db') → marked value = true →
    ∃ f ∈ desk.filed, textMember "ticket_id" value = some f.ticket.id ∧ f.request = c.request

/-- If the first ticket alike is recent, it is of the call's values. -/
def FirstOfSameRequest (desk : Desk) (c : TicketCall) : Prop :=
  ∀ f, Earliest desk c.request f → Recent c f → f.request = c.request

theorem not_swallowed_call (indexed : Indexed host desk) :
    NotSwallowed host desk c ↔ FirstOfSameRequest desk c := by
  unfold NotSwallowed FirstOfSameRequest
  rcases run_cases indexed (c := c) with ⟨f, first, recent, answered⟩ | ⟨old, inserted⟩
  · rw [answered]
    constructor
    · intro all g earliest _
      cases first.symm.trans (earliest_iff.mp earliest)
      obtain ⟨g, mem, id, same⟩ := all _ _ rfl rfl
      have here : f = g := List.inj_on_of_nodup_map indexed.ids (first_eq_some first).1 mem
        (by simpa [duplicateOf, textMember] using id)
      rw [here, same]
    · rintro all value db' shape -
      simp only [Except.ok.injEq, Prod.mk.injEq] at shape
      obtain ⟨rfl, -⟩ := shape
      exact ⟨f, (first_eq_some first).1, rfl, all f (earliest_iff.mpr first) recent⟩
  · constructor
    · intro _ f earliest recent
      exact absurd recent (old f (earliest_iff.mp earliest))
    · intro _ value db' shape duplicate
      rw [shape] at inserted
      obtain ⟨t, rfl⟩ := inserted_value inserted
      cases duplicate

/-- **No request is swallowed exactly where the first ticket alike is of the same request.** -/
theorem no_swallow_iff (digests : Digests host) (db : Db) (calls : List TicketCall) :
    Run (Guarded (NotSwallowed host) (StepOf (Desk.call host))) (.opened db) calls
        (calls.foldl (Desk.call host) (.opened db)) ↔
      Run (Guarded FirstOfSameRequest (StepOf (Desk.call host))) (.opened db) calls
        (calls.foldl (Desk.call host) (.opened db)) := by
  refine @Run.guarded_congr _ _ _ _ _ (Indexed host) ?_ ?_ _ _ _ (indexed_opened db)
  · rintro desk c _ rfl indexed
    exact indexed_call digests indexed
  · intro desk c indexed
    exact not_swallowed_call indexed

/-! ## Poles

A digest of fixed width a character, without a colon. -/

/-- A character other than the colon, and a digit for which of the two it stands. -/
def blot (c : Char) : List Char := if c = ':' then ['h', '1'] else [c, '0']

theorem blot_injective {c d : Char} (same : blot c = blot d) : c = d := by
  unfold blot at same
  by_cases colon : c = ':' <;> by_cases other : d = ':'
  · rw [colon, other]
  · rw [if_pos colon, if_neg other] at same
    simp at same
  · rw [if_neg colon, if_pos other] at same
    simp at same
  · rw [if_neg colon, if_neg other] at same
    exact (List.cons.inj same).1

theorem blot_opens (c : Char) : ∃ d rest, blot c = d :: rest ∧ d ≠ ':' := by
  unfold blot
  by_cases colon : c = ':'
  · rw [if_pos colon]
    exact ⟨'h', _, rfl, by decide⟩
  · rw [if_neg colon]
    exact ⟨c, _, rfl, colon⟩

theorem blot_free (c : Char) : ':' ∉ blot c := by
  unfold blot
  by_cases colon : c = ':'
  · rw [if_pos colon]
    decide
  · rw [if_neg colon]
    simpa using Ne.symm colon

def poleHost : Host :=
  { Host.plain with sha256 := fun s => String.ofList (s.toList.flatMap blot) }

theorem pole_digests : Digests poleHost where
  free s t same := by
    have free : PrefixFree blot := prefixFree_of_width 2
      (fun c => by unfold blot; split <;> rfl) fun _ _ => blot_injective
    have chars : s.toList.flatMap blot = t.toList.flatMap blot := String.ofList_injective same
    have closed := free.closed blot_opens s.toList t.toList [] [] (by rw [chars])
    exact String.toList_injective closed.1
  apart s t suffix same := by
    have colon : ':' ∈ (poleHost.sha256 s).toList := by
      rw [same]
      simp
    simp only [poleHost, String.toList_ofList, List.mem_flatMap] at colon
    obtain ⟨c, -, here⟩ := colon
    exact blot_free c here

/-- One user and no tickets. -/
def poleDb : Db where
  users := [{ id := "U001", name := "An", department := "it_ops", role := "employee",
              permissions := ["ticket:create"], isActive := true }]
  servers := []
  tickets := []
  vpnProfiles := []
  pendingActions := []
  auditLog := []

/-- U001 asks for a ticket, so many minutes after the start. -/
def asked (minutes number : Nat) (title : String) (severity : Severity) (details : String) :
    TicketCall where
  env := { now := minutes * 60000000, dbNow := minutes * 60000000, auditId := 0,
           ticketNumber := number, profileNumber := 0, uuid := 0 }
  principal := { userId := "U001", name := "An", department := "it_ops", role := "employee",
                 permissions := ["ticket:create"] }
  title := title
  severity := severity
  details := details

/-- What the call finds: whether the first ticket of its text is of its values, and recent. -/
def finds (desk : Desk) (c : TicketCall) : Option (Bool × Bool) :=
  (desk.first c.request).map fun f => (decide (f.request = c.request), decide (Recent c f))

theorem finds_eq_some {a b : Bool} (found : finds desk c = some (a, b)) : ∃ f,
    desk.first c.request = some f ∧ decide (f.request = c.request) = a ∧
      decide (Recent c f) = b := by
  obtain ⟨f, first, pair⟩ := Option.map_eq_some_iff.mp found
  rw [Prod.mk.injEq] at pair
  exact ⟨f, first, pair⟩

def barred (minutes number : Nat) : TicketCall :=
  asked minutes number "disk|low|full" .high "on web-1"

def unbarred (minutes number : Nat) : TicketCall :=
  asked minutes number "disk" .low "full|high|on web-1"

/-- Bars without a request alike do no harm. -/
theorem no_swallow_pole : Run (Guarded (NotSwallowed poleHost) (StepOf (Desk.call poleHost)))
    (.opened poleDb) [barred 0 1, barred 5 2]
    ([barred 0 1, barred 5 2].foldl (Desk.call poleHost) (.opened poleDb)) := by
  refine (no_swallow_iff pole_digests poleDb _).mpr (.cons ⟨?_, rfl⟩ (.cons ⟨?_, rfl⟩ (.nil _)))
  · rintro f ⟨-, front, back, shape, -⟩
    simp [Desk.opened] at shape
  · intro f earliest _
    have found : finds ((Desk.opened poleDb).call poleHost (barred 0 1)) (barred 5 2) =
        some (true, true) := by decide +kernel
    obtain ⟨g, first, same, -⟩ := finds_eq_some found
    cases first.symm.trans (earliest_iff.mp earliest)
    exact of_decide_eq_true same

/-- A low request is answered with the ticket of a high one, whose title holds its severity. -/
theorem swallowed_by_bars : ¬Run (Guarded (NotSwallowed poleHost) (StepOf (Desk.call poleHost)))
    (.opened poleDb) [barred 0 1, unbarred 5 2]
    ([barred 0 1, unbarred 5 2].foldl (Desk.call poleHost) (.opened poleDb)) := by
  intro run
  have second := Run.last_guard (show Run _ _ ([barred 0 1] ++ [unbarred 5 2]) _ from run)
  have found : finds ([barred 0 1].foldl (Desk.call poleHost) (.opened poleDb)) (unbarred 5 2) =
      some (false, true) := by decide +kernel
  obtain ⟨f, first, differs, recent⟩ := finds_eq_some found
  have same := (not_swallowed_call (indexed_run pole_digests _ _)).mp second f
    (earliest_iff.mpr first) (of_decide_eq_true recent)
  exact of_decide_eq_false differs same

end OpsAssist.Tickets
