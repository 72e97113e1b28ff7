/-
# OpsAssist.Api.Tickets -- reading tickets: the endpoint and the tool

A ticket is seen by the person who raised it and by their department.  The rule is written
twice: `_get_support_ticket` reads one ticket and looks its raiser up, `my_tickets` joins the
tickets with their raisers, sorts and cuts off.

`windows_agree`: at every moment of every run the two show the same tickets with the same
texts, and the list leaves out only what is not newer than all it has.
`texts_confined`: a title, severity or details reach nobody else.  What a user is told of a
whole run, by any tool, approval or list, is the same whatever stands in the tickets they may
not see, also while others raise, read and approve in between.
Poles: `windows_agree_pole`, `texts_confined_pole`.
-/
import Mathlib.Data.List.Sort
import OpsAssist.Theory.Keyed
import OpsAssist.Tools.Approvals

namespace OpsAssist.TicketViews

set_option autoImplicit false

open Theory

variable {host : Host}

/-! ## The endpoint -/

structure TicketOut where
  ticketId : String
  title : String
  severity : String
  status : String
  details : String
  raisedBy : String
  raisedByName : String
  raisedAt : Instant

def ticketOut (row : Ticket × User) : TicketOut where
  ticketId := row.1.id
  title := row.1.title
  severity := row.1.severity
  status := row.1.status
  details := row.1.details
  raisedBy := row.1.createdBy
  raisedByName := row.2.name
  raisedAt := row.1.createdAt

/-- `limit: int = Query(default=20, ge=1, le=100)` -/
structure Limit where
  rows : Nat := 20
  some_row : 1 ≤ rows := by decide
  bounded : rows ≤ 100 := by decide

/-- The tickets, each with the users who raised it. -/
def joined (db : Db) : List (Ticket × User) :=
  db.tickets.flatMap fun t => (db.users.filter fun u => u.id == t.createdBy).map fun u => (t, u)

def offered (principal : Principal) (row : Ticket × User) : Bool :=
  row.1.createdBy == principal.userId || row.2.department == principal.department

/-- `order_by(Ticket.created_at.desc())` -/
def newestFirst (rows : List (Ticket × User)) : List (Ticket × User) :=
  rows.insertionSort fun a b => b.1.createdAt ≤ a.1.createdAt

/-- The order in which the database comes upon rows; it decides between rows of one time. -/
structure Scan where
  rows : List (Ticket × User) → List (Ticket × User)
  perm : ∀ found, (rows found).Perm found

def myTickets (scan : Scan) (db : Db) (principal : Principal) (limit : Limit) : List TicketOut :=
  if principal.has "ticket:create" then
    ((newestFirst (scan.rows ((joined db).filter (offered principal)))).take limit.rows).map
      ticketOut
  else []

/-- `raise_ticket`: the tool, with the body as its arguments and no message of a chat. -/
def raiseTicket (env : Env) (principal : Principal) (requestId title severity details : String) :
    Call where
  env
  caller := principal
  ctx := { requestId }
  operation := .runTool "create_support_ticket"
    (.obj [("title", .str title), ("severity", .str severity), ("details", .str details)])

/-! ## The rule -/

/-- Who may see a ticket: the person who raised it, and their department. -/
def MaySee (db : Db) (principal : Principal) (t : Ticket) : Prop :=
  t.createdBy = principal.userId ∨
    ∃ raiser, db.user t.createdBy = some raiser ∧ raiser.department = principal.department

/-- What the tool shows of a ticket. -/
def ticketData (host : Host) (t : Ticket) : Value :=
  .obj
    [("ticket_id", .str t.id), ("title", .str t.title), ("severity", .str t.severity),
      ("status", .str t.status), ("details", .str t.details), ("raised_by", .str t.createdBy),
      ("raised_at", .str (isoformat host t.createdAt))]

/-- The same of a row of the list. -/
def TicketOut.data (host : Host) (row : TicketOut) : Value :=
  .obj
    [("ticket_id", .str row.ticketId), ("title", .str row.title), ("severity", .str row.severity),
      ("status", .str row.status), ("details", .str row.details), ("raised_by", .str row.raisedBy),
      ("raised_at", .str (isoformat host row.raisedAt))]

section

variable {db : Db} {principal : Principal} {t : Ticket} {id : String}

theorem sees_iff : (t.createdBy == principal.userId ||
    ((db.user t.createdBy).map fun r => r.department == principal.department).getD false) = true ↔
      MaySee db principal t := by
  unfold MaySee
  cases raiser : db.user t.createdBy with
  | none => simp
  | some r => simp

theorem read_seen (found : db.ticket id = some t) (sees : MaySee db principal t) :
    getSupportTicket host principal id db = .ok (.ok (ticketData host t), db) := by
  simp only [getSupportTicket, Tx.read_bind, found]
  rw [if_pos (sees_iff.mpr sees)]
  rfl

theorem read_unseen (found : db.ticket id = some t) (unseen : ¬MaySee db principal t) :
    getSupportTicket host principal id db =
      .ok (.error (.denied (id ++ " belongs to another department")), db) := by
  simp only [getSupportTicket, Tx.read_bind, found]
  rw [if_neg (fun sees => unseen (sees_iff.mp sees))]
  rfl

theorem read_absent (absent : db.ticket id = none) :
    getSupportTicket host principal id db =
      .ok (.error (.error ("no ticket with id " ++ host.repr id)), db) := by
  simp only [getSupportTicket, Tx.read_bind, absent]
  rfl

/-- Reading a ticket changes nothing. -/
theorem read_changes_nothing : ∃ r, getSupportTicket host principal id db = .ok (r, db) := by
  cases found : db.ticket id with
  | none => exact ⟨_, read_absent found⟩
  | some t =>
      by_cases sees : MaySee db principal t
      · exact ⟨_, read_seen found sees⟩
      · exact ⟨_, read_unseen found sees⟩

end

/-! ## Tables in order -/

/-- What the keys of the tables give: ids that are unique, raisers who are known; and only VPN
profiles wait for an approval. -/
structure Sound (db : Db) : Prop where
  tickets_once : Keyed.Unique Ticket.id db.tickets
  users_once : Keyed.Unique User.id db.users
  raised : ∀ t ∈ db.tickets, db.hasUser t.createdBy = true
  proposed : ∀ p ∈ db.pendingActions, p.tool = "create_vpn_profile"

theorem Sound.ticket {db : Db} (sound : Sound db) {t : Ticket} (mem : t ∈ db.tickets) :
    db.ticket t.id = some t :=
  (Keyed.lookup_eq_some_iff sound.tickets_once).mpr ⟨mem, rfl⟩

theorem ticket_mem {db : Db} {id : String} {t : Ticket} (found : db.ticket id = some t) :
    t ∈ db.tickets ∧ t.id = id :=
  ⟨Keyed.lookup_mem found, Keyed.lookup_key found⟩

/-- The raiser of a ticket is the one the list joins with it. -/
theorem Sound.raiser {db : Db} (sound : Sound db) {t : Ticket} {u : User} :
    (u ∈ db.users ∧ u.id = t.createdBy) ↔ db.user t.createdBy = some u :=
  (Keyed.lookup_eq_some_iff sound.users_once).symm

theorem mem_joined {db : Db} {row : Ticket × User} : row ∈ joined db ↔
    row.1 ∈ db.tickets ∧ row.2 ∈ db.users ∧ row.2.id = row.1.createdBy := by
  obtain ⟨t, u⟩ := row
  simp only [joined, List.mem_flatMap, List.mem_map, List.mem_filter, beq_iff_eq, Prod.mk.injEq]
  constructor
  · rintro ⟨t', mem, u', ⟨user, same⟩, rfl, rfl⟩
    exact ⟨mem, user, same⟩
  · rintro ⟨mem, user, same⟩
    exact ⟨t, mem, u, ⟨user, same⟩, rfl, rfl⟩

/-- The list offers a ticket with its raiser exactly where the rule lets it be seen. -/
theorem Sound.offered {db : Db} (sound : Sound db) {principal : Principal} {row : Ticket × User} :
    row ∈ (joined db).filter (offered principal) ↔
      row.1 ∈ db.tickets ∧ db.user row.1.createdBy = some row.2 ∧ MaySee db principal row.1 := by
  rw [List.mem_filter, mem_joined, sound.raiser, and_assoc]
  refine and_congr_right fun _ => and_congr_right fun raiser => ?_
  unfold TicketViews.offered MaySee
  rw [raiser]
  simp

/-- Each ticket is joined with one raiser. -/
theorem Sound.joined_ids {db : Db} (sound : Sound db) :
    (joined db).map (fun row => row.1.id) = db.tickets.map Ticket.id := by
  have one : ∀ t ∈ db.tickets,
      ((db.users.filter fun u => u.id == t.createdBy).map fun u => (t, u)).map
        (fun row => row.1.id) = [t.id] := by
    intro t mem
    obtain ⟨u, known, same⟩ := List.any_eq_true.mp (sound.raised t mem)
    have raiser : Keyed.lookup User.id t.createdBy db.users = some u :=
      (Keyed.lookup_eq_some_iff sound.users_once).mpr ⟨known, beq_iff_eq.mp same⟩
    have found : (db.users.filter fun u => u.id == t.createdBy) = [u] := by
      rw [← Option.toList_some, ← raiser]
      exact Keyed.filter_key sound.users_once
    rw [found]
    rfl
  rw [joined, List.map_flatMap, List.flatMap_congr one, ← List.map_eq_flatMap]

/-! ## The two windows -/

section

variable {scan : Scan} {db : Db} {principal : Principal} {limit : Limit}

/-- What the list is cut off from. -/
def arranged (scan : Scan) (db : Db) (principal : Principal) : List (Ticket × User) :=
  newestFirst (scan.rows ((joined db).filter (offered principal)))

theorem arranged_perm :
    (arranged scan db principal).Perm ((joined db).filter (offered principal)) :=
  (List.perm_insertionSort _ _).trans (scan.perm _)

theorem arranged_sorted :
    (arranged scan db principal).Pairwise fun a b => b.1.createdAt ≤ a.1.createdAt := by
  have total : Std.Total fun a b : Ticket × User => b.1.createdAt ≤ a.1.createdAt :=
    ⟨fun a b => le_total b.1.createdAt a.1.createdAt⟩
  have trans : IsTrans (Ticket × User) fun a b => b.1.createdAt ≤ a.1.createdAt :=
    ⟨fun _ _ _ first second => le_trans second first⟩
  exact List.pairwise_insertionSort _ _

/-- The two windows show the same. -/
structure Agree (host : Host) (scan : Scan) (db : Db) (principal : Principal) (limit : Limit) :
    Prop where
  /-- what the list shows, the tool shows -/
  listed : ∀ row ∈ myTickets scan db principal limit,
    getSupportTicket host principal row.ticketId db = .ok (.ok (row.data host), db)
  /-- what the tool shows, the list shows, or it is full of tickets that are not older -/
  shown : ∀ id value, getSupportTicket host principal id db = .ok (.ok value, db) →
    (∃ row ∈ myTickets scan db principal limit, row.ticketId = id ∧ row.data host = value) ∨
      (myTickets scan db principal limit).length = limit.rows ∧
        ∃ t, db.ticket id = some t ∧
          ∀ row ∈ myTickets scan db principal limit, t.createdAt ≤ row.raisedAt
  once : ((myTickets scan db principal limit).map TicketOut.ticketId).Nodup
  newest : (myTickets scan db principal limit).Pairwise fun a b => b.raisedAt ≤ a.raisedAt
  short : (myTickets scan db principal limit).length ≤ limit.rows

theorem Sound.agree (sound : Sound db) (may : principal.has "ticket:create" = true) :
    Agree host scan db principal limit := by
  have list : myTickets scan db principal limit =
      ((arranged scan db principal).take limit.rows).map ticketOut := if_pos may
  have offers : ∀ row ∈ arranged scan db principal, row.1 ∈ db.tickets ∧
      db.user row.1.createdBy = some row.2 ∧ MaySee db principal row.1 :=
    fun row mem => sound.offered.mp (arranged_perm.mem_iff.mp mem)
  constructor
  · intro out mem
    rw [list] at mem
    obtain ⟨row, there, rfl⟩ := List.mem_map.mp mem
    obtain ⟨ticket, -, sees⟩ := offers row (List.mem_of_mem_take there)
    exact read_seen (sound.ticket ticket) sees
  · intro id value shown
    cases found : db.ticket id with
    | none =>
        rw [read_absent found] at shown
        cases shown
    | some t =>
        by_cases sees : MaySee db principal t
        · rw [read_seen found sees] at shown
          cases shown
          obtain ⟨mem, rfl⟩ := ticket_mem found
          obtain ⟨u, known, same⟩ := List.any_eq_true.mp (sound.raised t mem)
          have raiser := sound.raiser.mp ⟨known, beq_iff_eq.mp same⟩
          have there : (t, u) ∈ arranged scan db principal :=
            arranged_perm.mem_iff.mpr (sound.offered.mpr ⟨mem, raiser, sees⟩)
          rw [list]
          rw [← List.take_append_drop limit.rows (arranged scan db principal)] at there
          rcases List.mem_append.mp there with front | back
          · exact .inl ⟨ticketOut (t, u), List.mem_map_of_mem front, rfl, rfl⟩
          · have sorted := @arranged_sorted scan db principal
            rw [← List.take_append_drop limit.rows (arranged scan db principal),
              List.pairwise_append] at sorted
            have full : limit.rows < (arranged scan db principal).length := by
              have some_left := List.length_pos_of_mem back
              rw [List.length_drop] at some_left
              omega
            refine .inr ⟨?_, t, rfl, ?_⟩
            · rw [List.length_map, List.length_take]
              omega
            · intro out mem
              obtain ⟨row, kept, rfl⟩ := List.mem_map.mp mem
              exact sorted.2.2 row kept _ back
        · rw [read_unseen found sees] at shown
          cases shown
  · rw [list, List.map_map]
    have ids : ((arranged scan db principal).map fun row => row.1.id).Nodup := by
      rw [(arranged_perm.map _).nodup_iff]
      refine List.Nodup.sublist (List.filter_sublist.map _) ?_
      rw [sound.joined_ids]
      exact sound.tickets_once
    exact List.Nodup.sublist ((List.take_sublist _ _).map _) ids
  · rw [list, List.pairwise_map]
    exact arranged_sorted.sublist (List.take_sublist _ _)
  · rw [list, List.length_map, List.length_take]
    exact Nat.min_le_left _ _

end

/-! ## Databases that differ in the texts of some tickets -/

/-- The same ticket, with other texts if it is one of these. -/
structure Veiled (S : String → Prop) (t t' : Ticket) : Prop where
  id : t'.id = t.id
  status : t'.status = t.status
  createdBy : t'.createdBy = t.createdBy
  idempotencyKey : t'.idempotencyKey = t.idempotencyKey
  createdAt : t'.createdAt = t.createdAt
  shown : ¬S t.id → t' = t

theorem Veiled.refl (S : String → Prop) (t : Ticket) : Veiled S t t :=
  ⟨rfl, rfl, rfl, rfl, rfl, fun _ => rfl⟩

/-- Databases that differ in the texts of these tickets, and in their logs. -/
structure Alike (S : String → Prop) (db db' : Db) : Prop where
  sound : Sound db
  tables : ∃ rows log, db' = { db with tickets := rows, auditLog := log } ∧
    List.Forall₂ (Veiled S) db.tickets rows

/-- None of these tickets may be seen. -/
def Hidden (S : String → Prop) (db : Db) (principal : Principal) : Prop :=
  ∀ t ∈ db.tickets, S t.id → ¬MaySee db principal t

section

variable {S : String → Prop} {db db' : Db} {rows : List Ticket}

theorem Alike.refl (sound : Sound db) : Alike S db db :=
  ⟨sound, db.tickets, db.auditLog, rfl, List.forall₂_same.mpr fun t _ => .refl S t⟩

/-- A search for something both have finds the same ticket. -/
theorem find_veiled {p : Ticket → Bool} (same : ∀ t t', Veiled S t t' → p t' = p t) :
    ∀ {rows rows' : List Ticket}, List.Forall₂ (Veiled S) rows rows' →
      Option.Rel (Veiled S) (rows.find? p) (rows'.find? p)
  | _, _, .nil => .none
  | _, _, .cons (a := t) (b := t') veiled rest => by
      rw [List.find?_cons, List.find?_cons, same t t' veiled]
      cases p t with
      | true => exact .some veiled
      | false => exact find_veiled same rest

theorem all_veiled {p : Ticket → Bool} (same : ∀ t t', Veiled S t t' → p t' = p t) :
    ∀ {rows rows' : List Ticket}, List.Forall₂ (Veiled S) rows rows' → rows'.all p = rows.all p
  | _, _, .nil => rfl
  | _, _, .cons veiled rest => by
      rw [List.all_cons, List.all_cons, same _ _ veiled, all_veiled same rest]

theorem ids_veiled : ∀ {rows rows' : List Ticket}, List.Forall₂ (Veiled S) rows rows' →
    rows'.map Ticket.id = rows.map Ticket.id
  | _, _, .nil => rfl
  | _, _, .cons veiled rest => by
      rw [List.map_cons, List.map_cons, veiled.id, ids_veiled rest]

/-- What a transaction gives in either database, unless one of them refuses it. -/
inductive Matched (S : String → Prop) {α : Type} :
    Except Raised (α × Db) → Except Raised (α × Db) → Prop where
  | raised (e : Raised) : Matched S (.error e) (.error e)
  | returned (a : α) {db db' : Db} (alike : Alike S db db') : Matched S (.ok (a, db)) (.ok (a, db'))
  | refused_left (r : Except Raised (α × Db)) : Matched S (.error .database) r
  | refused_right (r : Except Raised (α × Db)) : Matched S r (.error .database)

theorem Matched.bind {α β : Type} {m : Tx α} {next : α → Tx β}
    (first : Matched S (m db) (m db'))
    (rest : ∀ a d d', Alike S d d' → Matched S (next a d) (next a d')) :
    Matched S ((m >>= next) db) ((m >>= next) db') := by
  show Matched S (Tx.andThen m next db) (Tx.andThen m next db')
  unfold Tx.andThen
  generalize m db = x at first
  generalize m db' = y at first
  cases first with
  | raised e => exact .raised e
  | returned a alike => exact rest a _ _ alike
  | refused_left r => exact .refused_left _
  | refused_right r => exact .refused_right _

theorem Matched.done {α : Type} (alike : Alike S db db') (a : α) :
    Matched S ((pure a : Tx α) db) ((pure a : Tx α) db') :=
  .returned a alike

theorem Matched.raise {α : Type} (e : Raised) :
    Matched S ((Tx.raise e : Tx α) db) ((Tx.raise e : Tx α) db') :=
  .raised e

/-! ## Statements -/

theorem insertTicket_matched (alike : Alike S db db') (t : Ticket) :
    Matched S (Db.insertTicket t db) (Db.insertTicket t db') := by
  obtain ⟨sound, rows, log, rfl, veiled⟩ := alike
  have same : Db.ticketOk { db with tickets := rows, auditLog := log } t = db.ticketOk t := by
    unfold Db.ticketOk
    rw [all_veiled (fun u u' veil => by rw [veil.id, veil.idempotencyKey]) veiled]
    rfl
  unfold Db.insertTicket
  rw [same]
  by_cases fits : db.ticketOk t = true
  · rw [if_pos fits, if_pos fits]
    simp only [Db.ticketOk, Bool.and_eq_true, List.all_eq_true, bne_iff_ne] at fits
    refine .returned () ⟨⟨?_, sound.users_once, ?_, sound.proposed⟩, rows ++ [t], log, rfl,
      List.rel_append veiled (.cons (.refl S t) .nil)⟩
    · exact Keyed.unique_insert sound.tickets_once
        (Keyed.lookup_eq_none_iff.mpr fun u mem => (fits.2 u mem).1)
    · intro u mem
      rcases List.mem_append.mp mem with before | now
      · exact sound.raised u before
      · rw [List.mem_singleton.mp now]
        exact fits.1.2
  · rw [if_neg fits, if_neg fits]
    exact .raised _

theorem insertProfile_matched (alike : Alike S db db') (p : VpnProfile) :
    Matched S (Db.insertProfile p db) (Db.insertProfile p db') := by
  obtain ⟨sound, rows, log, rfl, veiled⟩ := alike
  have same : Db.profileOk { db with tickets := rows, auditLog := log } p = db.profileOk p := rfl
  unfold Db.insertProfile
  rw [same]
  split
  · exact .returned () ⟨⟨sound.tickets_once, sound.users_once, sound.raised, sound.proposed⟩,
      rows, log, rfl, veiled⟩
  · exact .raised _

theorem insertPending_matched (alike : Alike S db db') {p : PendingAction}
    (named : p.tool = "create_vpn_profile") :
    Matched S (Db.insertPending p db) (Db.insertPending p db') := by
  obtain ⟨sound, rows, log, rfl, veiled⟩ := alike
  have same : Db.pendingOk { db with tickets := rows, auditLog := log } p = db.pendingOk p := rfl
  unfold Db.insertPending
  rw [same]
  split
  · refine .returned () ⟨⟨sound.tickets_once, sound.users_once, sound.raised, ?_⟩, rows, log, rfl,
      veiled⟩
    intro q mem
    rcases List.mem_append.mp mem with before | now
    · exact sound.proposed q before
    · rw [List.mem_singleton.mp now]
      exact named
  · exact .raised _

theorem updatePending_matched (alike : Alike S db db') (id : Uuid)
    {change : PendingAction → PendingAction} (keeps : ∀ p, (change p).tool = p.tool) :
    Matched S (Db.updatePending id change db) (Db.updatePending id change db') := by
  obtain ⟨sound, rows, log, rfl, veiled⟩ := alike
  unfold Db.updatePending
  dsimp only
  have same : Db.hasUser { db with tickets := rows, auditLog := log } = db.hasUser := rfl
  rw [same]
  split
  · refine .returned () ⟨⟨sound.tickets_once, sound.users_once, sound.raised, ?_⟩, rows, log, rfl,
      veiled⟩
    intro q mem
    obtain ⟨p, there, rfl⟩ := List.mem_map.mp mem
    split
    · rw [keeps]
      exact sound.proposed p there
    · exact sound.proposed p there
  · exact .raised _

theorem updateProfile_matched (alike : Alike S db db') (id approver : String) (action : Uuid) :
    Matched S (Db.updateProfile id approver action db)
      (Db.updateProfile id approver action db') := by
  obtain ⟨sound, rows, log, rfl, veiled⟩ := alike
  unfold Db.updateProfile
  have same : Db.hasUser { db with tickets := rows, auditLog := log } = db.hasUser := rfl
  rw [same]
  split
  · exact .returned () ⟨⟨sound.tickets_once, sound.users_once, sound.raised, sound.proposed⟩,
      rows, log, rfl, veiled⟩
  · exact .raised _

theorem stored_matched (alike : Alike S db db') (v : Value) :
    Matched S (stored v db) (stored v db') := by
  unfold stored
  cases Jsonb.store v with
  | none => exact .raised _
  | some column => exact .returned column alike

/-- A log refuses a record or takes it. -/
theorem audited_matched (alike : Alike S db db') (env : Env) (entry : AuditEntry)
    (outcome : ToolOutcome) :
    Matched S (audited host env entry outcome db) (audited host env entry outcome db') := by
  obtain ⟨sound, rows, log, rfl, veiled⟩ := alike
  unfold audited
  dsimp only
  cases Audit.append host (Datetime.ofInstant env.dbNow (host.zone env.dbNow)) env.auditId entry
      db.auditLog with
  | none => exact .refused_left _
  | some row =>
      cases Audit.append host (Datetime.ofInstant env.dbNow (host.zone env.dbNow)) env.auditId
          entry log with
      | none => exact .refused_right _
      | some row' =>
          exact .returned outcome ⟨⟨sound.tickets_once, sound.users_once, sound.raised,
            sound.proposed⟩, rows, log ++ [row'], rfl, veiled⟩

/-! ## Calls -/

theorem handle_matched (alike : Alike S db db') {env : Env} {principal : Principal}
    {args : ToolArgs} {ctx : ToolContext}
    (hidden : args.model = .getSupportTicket → Hidden S db principal) :
    Matched S (handle host env principal args ctx db) (handle host env principal args ctx db') := by
  have both := alike
  obtain ⟨sound, rows, log, rfl, veiled⟩ := both
  cases args with
  | searchInternalDocs query department =>
      simp only [handle, searchInternalDocs]
      cases env.retrieved with
      | none => exact .raise _
      | some chunks => exact .done alike _
  | getServerStatus serverId =>
      simp only [handle, getServerStatus, Tx.read_bind]
      have same : Db.server { db with tickets := rows, auditLog := log } serverId =
          db.server serverId := rfl
      rw [same]
      cases db.server serverId with
      | none => exact .done alike _
      | some server => exact .done alike _
  | createSupportTicket title severity details =>
      simp only [handle, createSupportTicket, Tx.read_bind]
      have found := find_veiled (fun t t' veil => by rw [veil.idempotencyKey]) veiled
        (p := fun t => t.idempotencyKey == host.sha256 (principal.userId ++ "|" ++ title ++ "|" ++
          severity.text ++ "|" ++ details))
      generalize db.tickets.find? _ = here at found ⊢
      generalize rows.find? _ = there at found ⊢
      cases found with
      | none => exact (insertTicket_matched alike _).bind fun _ _ _ after => .done after _
      | some veil =>
          dsimp only
          rw [veil.createdAt, veil.id, veil.status]
          split
          · exact .done alike _
          · exact (insertTicket_matched alike _).bind fun _ _ _ after => .done after _
  | getSupportTicket ticketId =>
      have found : Option.Rel (Veiled S) (db.ticket ticketId)
          (Db.ticket { db with tickets := rows, auditLog := log } ticketId) :=
        find_veiled (fun t t' veil => by rw [veil.id]) veiled
      simp only [handle]
      cases here : db.ticket ticketId with
      | none =>
          cases there : Db.ticket { db with tickets := rows, auditLog := log } ticketId with
          | none =>
              rw [read_absent here, read_absent there]
              exact .returned _ alike
          | some t' =>
              rw [here, there] at found
              cases found
      | some t =>
          cases there : Db.ticket { db with tickets := rows, auditLog := log } ticketId with
          | none =>
              rw [here, there] at found
              cases found
          | some t' =>
              rw [here, there] at found
              cases found with
              | some veil =>
                  have rule : MaySee { db with tickets := rows, auditLog := log } principal t' ↔
                      MaySee db principal t := by
                    unfold MaySee
                    rw [veil.createdBy]
                    rfl
                  by_cases sees : MaySee db principal t
                  · have open_ : ¬S t.id := fun closed =>
                      hidden rfl t (ticket_mem here).1 closed sees
                    obtain rfl := veil.shown open_
                    rw [read_seen here sees, read_seen there (rule.mpr sees)]
                    exact .returned _ alike
                  · rw [read_unseen here sees, read_unseen there (fun seen => sees (rule.mp seen))]
                    exact .returned _ alike
  | createVpnProfile employeeId employeeName durationDays =>
      simp only [handle, createVpnProfile, Tx.read_bind]
      have same : resolveEmployee host employeeId employeeName
          { db with tickets := rows, auditLog := log } =
            resolveEmployee host employeeId employeeName db := rfl
      rw [same]
      cases resolveEmployee host employeeId employeeName db with
      | error text => exact .done alike _
      | ok employee =>
          exact (insertProfile_matched alike _).bind fun _ _ _ after => .done after _

/-- Only `get_support_ticket` has its argument model. -/
theorem findTool_ticket {tool : String} {spec : ToolSpec} (known : findTool tool = some spec) :
    spec.argsModel = .getSupportTicket ↔ tool = "get_support_ticket" := by
  have member : spec ∈ TOOLS := List.mem_of_find?_eq_some known
  rw [← findTool_name known]
  simp only [TOOLS, List.mem_cons, List.not_mem_nil, or_false] at member
  rcases member with rfl | rfl | rfl | rfl | rfl <;> decide

theorem runTool_matched (alike : Alike S db db') {env : Env} {principal : Principal}
    {tool : String} {raw : Value} {ctx : ToolContext}
    (hidden : tool = "get_support_ticket" → Hidden S db principal) :
    Matched S (runTool host env principal tool raw ctx db)
      (runTool host env principal tool raw ctx db') := by
  unfold runTool
  cases known : findTool tool with
  | none => exact audited_matched alike _ _ _
  | some spec =>
  dsimp only
  cases validated : spec.argsModel.validate host raw with
  | error errors => exact audited_matched alike _ _ _
  | ok args =>
  dsimp only
  cases authorize principal spec with
  | some denial => exact audited_matched alike _ _ _
  | none =>
  dsimp only
  by_cases sensitive : spec.sensitive = true
  · have named : tool = "create_vpn_profile" :=
      (findTool_vpn known).mp ((findTool_sensitive known).mp sensitive)
    rw [if_pos sensitive]
    refine (stored_matched alike _).bind fun column d d' first => ?_
    refine (insertPending_matched first named).bind fun _ e e' second => ?_
    exact audited_matched second _ _ _
  · rw [if_neg sensitive]
    have reads : args.model = .getSupportTicket → Hidden S db principal := by
      intro model
      rw [validate_model validated, findTool_ticket known] at model
      exact hidden model
    refine (handle_matched alike reads).bind fun handled d d' after => ?_
    cases handled with
    | error failure => cases failure <;> exact audited_matched after _ _ _
    | ok result => exact audited_matched after _ _ _

theorem recordApprover_matched (alike : Alike S db db') (tool : String) (result : Value)
    (approver : String) (action : Uuid) :
    Matched S (recordApprover tool result approver action db)
      (recordApprover tool result approver action db') := by
  unfold recordApprover
  split
  · cases textMember "profile_id" result with
    | none => exact .raise _
    | some id =>
        dsimp only
        simp only [Tx.read_bind]
        have both := alike
        obtain ⟨sound, rows, log, rfl, veiled⟩ := both
        dsimp only
        cases db.vpnProfiles.find? fun p => p.id == id with
        | none => exact .done alike _
        | some p => exact updateProfile_matched alike _ _ _
  · exact .done alike _

/-- A decision on a pending action, and its record. -/
theorem decided_matched (alike : Alike S db db') {id : Uuid}
    {change : PendingAction → PendingAction} (keeps : ∀ p, (change p).tool = p.tool) {env : Env}
    {entry : AuditEntry} {outcome : ToolOutcome} :
    Matched S ((Db.updatePending id change >>= fun _ => audited host env entry outcome) db)
      ((Db.updatePending id change >>= fun _ => audited host env entry outcome) db') :=
  (updatePending_matched alike id keeps).bind fun _ _ _ after => audited_matched after _ _ _

theorem approvePending_matched (alike : Alike S db db') {env : Env} {approver : Principal}
    {pendingId : Uuid} {confirmHash : String} {ctx : ToolContext} :
    Matched S (approvePending host env approver pendingId confirmHash ctx db)
      (approvePending host env approver pendingId confirmHash ctx db') := by
  have same : Db.pendingAction db' pendingId = Db.pendingAction db pendingId := by
    obtain ⟨sound, rows, log, rfl, veiled⟩ := alike
    rfl
  have users : ∀ userId, principalOf db' userId = principalOf db userId := by
    obtain ⟨sound, rows, log, rfl, veiled⟩ := alike
    exact fun _ => rfl
  unfold approvePending
  simp only [Tx.read_bind, same]
  cases found : db.pendingAction pendingId with
  | none => exact audited_matched alike _ _ _
  | some p =>
  have named : p.tool = "create_vpn_profile" :=
    alike.sound.proposed p (List.mem_of_find?_eq_some found)
  dsimp only
  split
  · exact audited_matched alike _ _ _
  split
  · exact decided_matched alike (by intro _; rfl)
  split
  · exact audited_matched alike _ _ _
  split
  · exact audited_matched alike _ _ _
  split
  · exact audited_matched alike _ _ _
  simp only [Tx.read_bind, users]
  cases known : findTool p.tool with
  | none => exact .raise _
  | some spec =>
  dsimp only
  cases (principalOf db p.requesterId).filter fun r => (authorize r spec).isNone with
  | none =>
      exact decided_matched alike (by intro _; rfl)
  | some requester =>
  dsimp only
  cases validated : spec.argsModel.validate host p.arguments.read with
  | error errors => exact .raise _
  | ok args =>
  have model : args.model ≠ .getSupportTicket := by
    rw [validate_model validated, ne_eq, findTool_ticket known, named]
    decide
  refine (handle_matched alike fun reads => absurd reads model).bind fun handled d d' first => ?_
  cases handled with
  | error failure =>
      cases failure with
      | denied text => exact .raise _
      | error text =>
          exact decided_matched first (by intro _; rfl)
  | ok result =>
      refine (recordApprover_matched first _ _ _ _).bind fun _ _ _ second => ?_
      refine (stored_matched second _).bind fun _ _ _ third => ?_
      exact decided_matched third (by intro _; rfl)

theorem rejectPending_matched (alike : Alike S db db') {env : Env} {approver : Principal}
    {pendingId : Uuid} {reason : Option String} {ctx : ToolContext} :
    Matched S (rejectPending host env approver pendingId reason ctx db)
      (rejectPending host env approver pendingId reason ctx db') := by
  have same : Db.pendingAction db' pendingId = Db.pendingAction db pendingId := by
    obtain ⟨sound, rows, log, rfl, veiled⟩ := alike
    rfl
  unfold rejectPending
  simp only [Tx.read_bind, same]
  cases db.pendingAction pendingId with
  | none => exact .done alike _
  | some p =>
  dsimp only
  split
  · exact .done alike _
  split
  · exact .done alike _
  exact decided_matched alike (by intro _; rfl)

end

/-! ## Runs -/

/-- A call, a change of the users from outside, or a look at the list. -/
inductive Visit where
  | event (happens : Event)
  | list (principal : Principal) (limit : Limit)

def Visit.step (host : Host) (db : Db) : Visit → Db
  | .event happens => happens.step host db
  | .list _ _ => db

inductive Answer where
  | outcome (returned : Except Raised ToolOutcome)
  | rows (listed : List TicketOut)

/-- What a user is told. -/
def Visit.answers (host : Host) (scan : Scan) (userId : String) (db : Db) : Visit → List Answer
  | .event (.call made) =>
      if made.caller.userId = userId then [.outcome (made.run host db).1] else []
  | .event (.users _) => []
  | .list principal limit =>
      if principal.userId = userId then [.rows (myTickets scan db principal limit)] else []

def told (host : Host) (scan : Scan) (userId : String) : Db → List Visit → List Answer
  | _, [] => []
  | db, v :: visits =>
      v.answers host scan userId db ++ told host scan userId (v.step host db) visits

/-- The users keep their keys, and no raiser of a ticket is removed. -/
def Keyed (db : Db) : Visit → Prop
  | .event (.users known) =>
      Keyed.Unique User.id known ∧ ∀ t ∈ db.tickets, ∃ u ∈ known, u.id = t.createdBy
  | _ => True

/-- Whenever the user asks, they may see none of these tickets. -/
def Unseen (S : String → Prop) (userId : String) (db : Db) : Visit → Prop
  | .event (.call made) => made.caller.userId = userId → Hidden S db made.caller
  | .event (.users _) => True
  | .list principal _ => principal.userId = userId → Hidden S db principal

/-- Both databases refuse a call or neither does. -/
def SameRefusals (host : Host) (db db' : Db) : Visit → Prop
  | .event (.call made) =>
      (made.run host db).1 = .error .database ↔ (made.run host db').1 = .error .database
  | _ => True

section

variable {S : String → Prop} {db db' : Db}

/-- A call of `get_support_ticket` writes to the log and nowhere else. -/
theorem reading_logs {env : Env} {principal : Principal} {raw : Value} {ctx : ToolContext}
    {outcome : ToolOutcome}
    (done : runTool host env principal "get_support_ticket" raw ctx db = .ok (outcome, db')) :
    ∃ log, db' = { db with auditLog := log } := by
  have logs : ∀ {entry : AuditEntry} {told : ToolOutcome},
      audited host env entry told db = .ok (outcome, db') →
        ∃ log, db' = { db with auditLog := log } := by
    intro entry told wrote
    obtain ⟨-, row, -, -, same⟩ := audited_ok wrote
    exact ⟨_, same⟩
  unfold runTool at done
  cases known : findTool "get_support_ticket" with
  | none =>
      rw [known] at done
      exact logs done
  | some spec =>
  simp only [known] at done
  cases validated : spec.argsModel.validate host raw with
  | error errors =>
      simp only [validated] at done
      exact logs done
  | ok args =>
  simp only [validated] at done
  have model := (findTool_ticket known).mpr rfl
  cases allowed : authorize principal spec with
  | some denial =>
      simp only [allowed] at done
      exact logs done
  | none =>
  simp only [allowed] at done
  have harmless : ¬spec.sensitive = true := by
    rw [findTool_sensitive known, model]
    decide
  rw [if_neg harmless] at done
  obtain ⟨handled, mid, ran, last⟩ := Tx.bind_eq_ok.mp done
  have reads := validate_model validated
  rw [model] at reads
  cases args with
  | getSupportTicket ticketId =>
      obtain ⟨r, same⟩ := @read_changes_nothing host db principal ticketId
      simp only [handle, same] at ran
      cases ran
      cases handled with
      | error failure => cases failure <;> exact logs last
      | ok result => exact logs last
  | searchInternalDocs _ _ | getServerStatus _ | createSupportTicket _ _ _
  | createVpnProfile _ _ _ => cases reads

/-- A call does the same in both databases, unless it reads a ticket whose texts differ. -/
theorem body_matched (alike : Alike S db db') {call : Call}
    (hidden : ∀ raw, call.operation = .runTool "get_support_ticket" raw → Hidden S db call.caller) :
    Matched S (call.body host db) (call.body host db') := by
  unfold Call.body
  cases asked : call.operation with
  | runTool tool raw =>
      refine runTool_matched alike ?_
      rintro rfl
      exact hidden raw asked
  | approvePending pendingId confirmHash => exact approvePending_matched alike
  | rejectPending pendingId reason => exact rejectPending_matched alike

theorem run_matched (alike : Alike S db db') {call : Call}
    (hidden : ∀ raw, call.operation = .runTool "get_support_ticket" raw → Hidden S db call.caller)
    (refusals :
      (call.run host db).1 = .error .database ↔ (call.run host db').1 = .error .database) :
    (call.run host db).1 = (call.run host db').1 ∧
      Alike S (call.run host db).2 (call.run host db').2 := by
  have matched := @body_matched host S db db' alike call hidden
  unfold Call.run Db.transact at *
  generalize call.body host db = x at matched refusals
  generalize call.body host db' = y at matched refusals
  cases matched with
  | raised e => exact ⟨rfl, alike⟩
  | returned a after => exact ⟨rfl, after⟩
  | refused_left r =>
      have both := refusals.mp rfl
      cases y with
      | error e =>
          cases both
          exact ⟨rfl, alike⟩
      | ok returned => cases both
  | refused_right r =>
      have both := refusals.mpr rfl
      cases x with
      | error e =>
          cases both
          exact ⟨rfl, alike⟩
      | ok returned => cases both

/-- After a call that reads a ticket, the tables are as before. -/
theorem reads_only {call : Call} {raw : Value}
    (reads : call.operation = .runTool "get_support_ticket" raw) (db : Db) :
    ∃ log, (call.run host db).2 = { db with auditLog := log } := by
  cases returned : (call.run host db).1 with
  | error e => exact ⟨db.auditLog, Call.run_error returned⟩
  | ok outcome =>
      have ran := Call.run_ok returned
      unfold Call.body at ran
      rw [reads] at ran
      exact reading_logs ran

theorem run_reading (alike : Alike S db db') {call : Call} {raw : Value}
    (reads : call.operation = .runTool "get_support_ticket" raw) :
    Alike S (call.run host db).2 (call.run host db').2 := by
  obtain ⟨log, left⟩ := @reads_only host _ _ reads db
  obtain ⟨log', right⟩ := @reads_only host _ _ reads db'
  obtain ⟨sound, rows, old, rfl, veiled⟩ := alike
  rw [left, right]
  exact ⟨⟨sound.tickets_once, sound.users_once, sound.raised, sound.proposed⟩, rows, log', rfl,
    veiled⟩

/-- **A step keeps two databases alike.** -/
theorem step_alike (alike : Alike S db db') {v : Visit} (keyed : Keyed db v)
    (refusals : SameRefusals host db db' v) : Alike S (v.step host db) (v.step host db') := by
  cases v with
  | list principal limit => exact alike
  | event happens =>
      cases happens with
      | call made =>
          by_cases reads : ∃ raw, made.operation = .runTool "get_support_ticket" raw
          · obtain ⟨raw, reads⟩ := reads
            exact run_reading alike reads
          · exact (run_matched alike (fun raw asked => absurd ⟨raw, asked⟩ reads) refusals).2
      | users known =>
          obtain ⟨sound, rows, log, rfl, veiled⟩ := alike
          refine ⟨⟨sound.tickets_once, keyed.1, ?_, sound.proposed⟩, rows, log, rfl, veiled⟩
          intro t mem
          obtain ⟨u, there, same⟩ := keyed.2 t mem
          exact List.any_eq_true.mpr ⟨u, there, beq_iff_eq.mpr same⟩

/-- The list of someone who may see none of these tickets is the same. -/
theorem list_alike (alike : Alike S db db') {principal : Principal}
    (hidden : Hidden S db principal) (scan : Scan) (limit : Limit) :
    myTickets scan db' principal limit = myTickets scan db principal limit := by
  obtain ⟨sound, rows, log, rfl, veiled⟩ := alike
  have rejected : ∀ t ∈ db.tickets, S t.id → ∀ u ∈ db.users, u.id = t.createdBy →
      offered principal (t, u) = false := by
    intro t mem closed u known same
    have unseen := hidden t mem closed
    rw [Bool.eq_false_iff]
    intro yes
    have row := sound.offered.mp (List.mem_filter.mpr ⟨mem_joined.mpr ⟨mem, known, same⟩, yes⟩)
    exact unseen row.2.2
  have blocks : ∀ {left right : List Ticket}, List.Forall₂ (Veiled S) left right →
      (∀ t ∈ left, S t.id → ∀ u ∈ db.users, u.id = t.createdBy → offered principal (t, u) = false) →
      (right.flatMap fun t =>
          (db.users.filter fun u => u.id == t.createdBy).map fun u => (t, u)).filter
            (offered principal) =
        (left.flatMap fun t =>
          (db.users.filter fun u => u.id == t.createdBy).map fun u => (t, u)).filter
            (offered principal) := by
    intro left right pairs
    induction pairs with
    | nil => exact fun _ => rfl
    | @cons t t' left right veil pairs ih =>
        intro none
        rw [List.flatMap_cons, List.flatMap_cons, List.filter_append, List.filter_append,
          ih fun u mem => none u (List.mem_cons_of_mem _ mem)]
        congr 1
        by_cases closed : S t.id
        · have nothing : ∀ d : Ticket, d.createdBy = t.createdBy →
              ((db.users.filter fun u => u.id == d.createdBy).map fun u => (d, u)).filter
                (offered principal) = [] := by
            intro d same
            rw [List.filter_eq_nil_iff]
            intro row mem
            obtain ⟨u, there, rfl⟩ := List.mem_map.mp mem
            obtain ⟨known, raiser⟩ := List.mem_filter.mp there
            have no := none t List.mem_cons_self closed u known
              ((beq_iff_eq.mp raiser).trans same)
            unfold offered at *
            rw [same]
            exact Bool.eq_false_iff.mp no
          rw [nothing t' veil.createdBy, nothing t rfl]
        · rw [veil.shown closed]
  unfold myTickets joined
  rw [blocks veiled rejected]

/-- What a user who may see none of these tickets is told is the same. -/
theorem answers_alike (alike : Alike S db db') {userId : String} {v : Visit}
    (unseen : Unseen S userId db v) (refusals : SameRefusals host db db' v) (scan : Scan) :
    v.answers host scan userId db' = v.answers host scan userId db := by
  cases v with
  | list principal limit =>
      simp only [Visit.answers]
      by_cases asks : principal.userId = userId
      · rw [if_pos asks, if_pos asks, list_alike alike (unseen asks)]
      · rw [if_neg asks, if_neg asks]
  | event happens =>
      cases happens with
      | users known => rfl
      | call made =>
          simp only [Visit.answers]
          by_cases asks : made.caller.userId = userId
          · rw [if_pos asks, if_pos asks,
              (run_matched alike (fun _ _ => unseen asks) refusals).1]
          · rw [if_neg asks, if_neg asks]

theorem step_sound (sound : Sound db) {v : Visit} (keyed : Keyed db v) :
    Sound (v.step host db) := by
  have alone : Alike (fun _ => False) db db := .refl sound
  have refusals : SameRefusals host db db v := by
    cases v with
    | list _ _ => trivial
    | event happens =>
        cases happens with
        | call made => exact Iff.rfl
        | users known => trivial
  exact (step_alike alone keyed refusals).sound

end

/-- **The tool and the list agree at every moment.** -/
theorem windows_agree {scan : Scan} {db last : Db} {visits : List Visit} (sound : Sound db)
    (run : Run (Guarded Keyed (StepOf (Visit.step host))) db visits last) {principal : Principal}
    (may : principal.has "ticket:create" = true) (limit : Limit) :
    Agree host scan last principal limit := by
  have keeps : ∀ d v d', Guarded Keyed (StepOf (Visit.step host)) d v d' → Sound d → Sound d' := by
    intro d v d' went sound
    rw [← went.2]
    exact step_sound sound went.1
  exact (run.invariant keeps sound).agree may

/-! ## Texts that may not be seen -/

/-- A step of two databases. -/
def bothStep (host : Host) (d : Db × Db) (v : Visit) : Db × Db := (v.step host d.1, v.step host d.2)

/-- The keys hold, the user asks where they may see none of these tickets, and the two databases
refuse the same calls. -/
def Fair (host : Host) (S : String → Prop) (userId : String) (d : Db × Db) (v : Visit) : Prop :=
  Keyed d.1 v ∧ Unseen S userId d.1 v ∧ SameRefusals host d.1 d.2 v

/-- **The texts of a ticket reach nobody who may not see it**, whoever else reads them. -/
theorem texts_confined {S : String → Prop} {userId : String} {db db' : Db} {last : Db × Db}
    {visits : List Visit} (alike : Alike S db db')
    (run : Run (Guarded (Fair host S userId) (StepOf (bothStep host))) (db, db') visits last)
    (scan : Scan) : told host scan userId db' visits = told host scan userId db visits := by
  induction visits generalizing db db' with
  | nil => rfl
  | cons v visits ih =>
      cases run with
      | cons step rest =>
          obtain ⟨⟨keyed, unseen, refusals⟩, rfl⟩ := step
          unfold told
          rw [answers_alike alike unseen refusals scan, ih (step_alike alike keyed refusals) rest]

/-! ## Poles -/

def poleUser (id department : String) : User where
  id
  name := id
  department
  role := "employee"
  permissions := ["ticket:create"]
  isActive := true

def polePrincipal (id department : String) : Principal where
  userId := id
  name := id
  department
  role := "employee"
  permissions := ["ticket:create"]

/-- Ada of the finance department has raised a ticket with these details. -/
def poleDb (details : String) : Db where
  users := [poleUser "U001" "finance", poleUser "U002" "finance", poleUser "U003" "hr"]
  servers := []
  tickets := [
    { id := "INC-1", title := "Payroll", severity := "low", details, createdBy := "U001",
      idempotencyKey := "k", createdAt := 0 }]
  vpnProfiles := []
  pendingActions := []
  auditLog := []

theorem poleDb_sound (details : String) : Sound (poleDb details) where
  tickets_once := by simp [Keyed.Unique, poleDb]
  users_once := by simp [Keyed.Unique, poleDb, poleUser]
  raised := by simp [poleDb, poleUser, Db.hasUser]
  proposed := by simp [poleDb]

def poleScan : Scan where
  rows := id
  perm := fun _ => .refl _

def poleEnv (number : Nat) : Env where
  now := 60000000
  dbNow := 60000000
  auditId := number
  ticketNumber := number
  profileNumber := number
  uuid := 7

/-- A colleague of Ada's raises a ticket. -/
def poleRaise : Visit :=
  .event (.call (raiseTicket (poleEnv 2) (polePrincipal "U002" "finance") "r-1" "Printer" "low"
    "No paper"))

/-- Ada sees hers and her colleague's. -/
theorem windows_agree_pole :
    (myTickets poleScan (poleRaise.step Host.plain (poleDb "salary"))
        (polePrincipal "U001" "finance") {}).map TicketOut.ticketId = ["INC-2", "INC-1"] ∧
      Agree Host.plain poleScan (poleRaise.step Host.plain (poleDb "salary"))
        (polePrincipal "U001" "finance") {} := by
  have run : Run (Guarded Keyed (StepOf (Visit.step Host.plain))) (poleDb "salary") [poleRaise]
      (poleRaise.step Host.plain (poleDb "salary")) := .single ⟨trivial, rfl⟩
  exact ⟨by decide +kernel, windows_agree (poleDb_sound "salary") run (by decide) {}⟩

/-- Someone asks for Ada's ticket. -/
def poleRead (userId department : String) (number : Nat) : Call where
  env := poleEnv number
  caller := polePrincipal userId department
  ctx := { requestId := "r-2" }
  operation := .runTool "get_support_ticket" (.obj [("ticket_id", .str "INC-1")])

def taken (host : Host) (db : Db) : Visit → Bool
  | .event (.call made) =>
      match (made.run host db).1 with
      | .error .database => false
      | _ => true
  | _ => true

theorem refusals_of_taken {host : Host} {db db' : Db} {v : Visit} (left : taken host db v = true)
    (right : taken host db' v = true) : SameRefusals host db db' v := by
  cases v with
  | list _ _ => trivial
  | event happens =>
      cases happens with
      | users _ => trivial
      | call made =>
          constructor
          · intro refused
            simp only [taken, refused] at left
            cases left
          · intro refused
            simp only [taken, refused] at right
            cases right

def poleVisits : List Visit :=
  [.event (.call (poleRead "U002" "finance" 1)), .event (.call (poleRead "U003" "hr" 2)),
    .list (polePrincipal "U003" "hr") {}]

theorem pole_alike : Alike (fun id => id = "INC-1") (poleDb "salary") (poleDb "bonus") :=
  ⟨poleDb_sound "salary", _, [], rfl,
    .cons ⟨rfl, rfl, rfl, rfl, rfl, fun other => absurd rfl other⟩ .nil⟩

theorem pole_hidden (log : List AuditLog) :
    Hidden (fun id => id = "INC-1") { poleDb "salary" with auditLog := log }
      (polePrincipal "U003" "hr") := by
  intro t mem _
  obtain rfl := List.mem_singleton.mp mem
  simp [MaySee, Db.user, poleDb, poleUser, polePrincipal]

/-- A colleague of Ada's reads what she wrote; someone of another department is told the same,
whatever it was. -/
theorem texts_confined_pole :
    told Host.plain poleScan "U003" (poleDb "bonus") poleVisits =
      told Host.plain poleScan "U003" (poleDb "salary") poleVisits := by
  obtain ⟨log, first⟩ := @reads_only Host.plain (poleRead "U002" "finance" 1) _ rfl
    (poleDb "salary")
  obtain ⟨more, second⟩ := @reads_only Host.plain (poleRead "U003" "hr" 2) _ rfl
    { poleDb "salary" with auditLog := log }
  have seen : Hidden (fun id => id = "INC-1")
      ((poleRead "U002" "finance" 1).run Host.plain (poleDb "salary")).2
      (polePrincipal "U003" "hr") := by
    rw [first]
    exact pole_hidden log
  have listed : Hidden (fun id => id = "INC-1")
      ((poleRead "U003" "hr" 2).run Host.plain
        ((poleRead "U002" "finance" 1).run Host.plain (poleDb "salary")).2).2
      (polePrincipal "U003" "hr") := by
    rw [first, second]
    exact pole_hidden more
  have run : Run (Guarded (Fair Host.plain (fun id => id = "INC-1") "U003")
      (StepOf (bothStep Host.plain))) (poleDb "salary", poleDb "bonus") poleVisits
      (poleVisits.foldl (bothStep Host.plain) (poleDb "salary", poleDb "bonus")) := by
    refine .cons ⟨⟨trivial, ?_, ?_⟩, rfl⟩ (.cons ⟨⟨trivial, ?_, ?_⟩, rfl⟩
      (.single ⟨⟨trivial, ?_, trivial⟩, rfl⟩))
    · intro asks
      exact absurd asks (show "U002" ≠ "U003" by decide)
    · exact refusals_of_taken (by decide +kernel) (by decide +kernel)
    · exact fun _ => seen
    · exact refusals_of_taken (by decide +kernel) (by decide +kernel)
    · exact fun _ => listed
  exact texts_confined pole_alike run poleScan

end OpsAssist.TicketViews
