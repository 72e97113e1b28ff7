/-
# OpsAssist.Theory.EventStream -- server-sent events, read as they come

The lines of a stream set the fields of an event, and an empty line sends the event off.  The
reader takes one character after the other, so a stream may end anywhere, also within a line.

`read_prefix`: of a stream of frames that is cut off somewhere, exactly the frames that came
whole are read, each with its name and its data.
-/
import Mathlib.Data.List.Infix

namespace OpsAssist.Theory.EventStream

set_option autoImplicit false

/-! ## The reader -/

structure Event where
  name : List Char
  data : List Char
deriving DecidableEq

/-- The fields that are read, and the name of an event that does not set its own. -/
def eventField : List Char := ['e', 'v', 'e', 'n', 't']

def dataField : List Char := ['d', 'a', 't', 'a']

def message : List Char := ['m', 'e', 's', 's', 'a', 'g', 'e']

/-- The line so far, last character first, and the fields of the event so far. -/
structure Reader where
  line : List Char := []
  /-- a return came last: a line feed right after it ends no other line -/
  returned : Bool := false
  name : List Char := []
  data : Option (List Char) := none

namespace Reader

variable (r : Reader)

/-- A field is set; lines of data are put below each other. -/
def set (key value : List Char) : Reader :=
  if key = eventField then { r with name := value }
  else if key = dataField then
    { r with data := some (r.data.elim value fun above => above ++ '\n' :: value) }
  else r

/-- The field of a line: one blank after the colon is left out. -/
def setLine (line : List Char) : Reader :=
  let value := (line.dropWhile (· != ':')).drop 1
  r.set (line.takeWhile (· != ':')) (if value.head? = some ' ' then value.tail else value)

/-- The event that an empty line sends off, if there are data. -/
def sent : Option Event :=
  r.data.map fun data => { name := if r.name = [] then message else r.name, data }

def endLine : Reader × Option Event :=
  let rest := { r with line := [] }
  if r.line = [] then ({ rest with name := [], data := none }, r.sent)
  else if r.line.getLast? = some ':' then (rest, none)
  else (rest.setLine r.line.reverse, none)

def feed (c : Char) : Reader × Option Event :=
  if c = '\n' then if r.returned then ({ r with returned := false }, none) else r.endLine
  else if c = '\r' then ({ r.endLine.1 with returned := true }, r.endLine.2)
  else ({ r with line := c :: r.line, returned := false }, none)

/-- The events of a text, in order, and the reader after it. -/
def read : Reader → List Char → List Event
  | _, [] => []
  | r, c :: text => (r.feed c).2.toList ++ read (r.feed c).1 text

def after : Reader → List Char → Reader
  | r, [] => r
  | r, c :: text => after (r.feed c).1 text

@[simp] theorem read_nil : r.read [] = [] := rfl

@[simp] theorem after_nil : r.after [] = r := rfl

/-- A text may be read in two pieces. -/
theorem read_append : ∀ (r : Reader) (front back : List Char),
    r.read (front ++ back) = r.read front ++ (r.after front).read back
  | _, [], _ => rfl
  | r, c :: front, back => by
      rw [List.cons_append, read, read, after, read_append _ front back, List.append_assoc]

theorem after_append : ∀ (r : Reader) (front back : List Char),
    r.after (front ++ back) = (r.after front).after back
  | _, [], _ => rfl
  | r, c :: front, back => by
      rw [List.cons_append, after, after, after_append _ front back]

end Reader

/-- No line ends within the text. -/
def OneLine (text : List Char) : Prop := ∀ c ∈ text, c ≠ '\n' ∧ c ≠ '\r'

namespace Reader

/-- Characters of a line are kept. -/
theorem feed_plain (r : Reader) {c : Char} (feed : c ≠ '\n') (ret : c ≠ '\r') :
    r.feed c = ({ r with line := c :: r.line, returned := false }, none) := by
  rw [Reader.feed, if_neg feed, if_neg ret]

theorem read_plain : ∀ (r : Reader) {text : List Char}, OneLine text → r.read text = []
  | _, [], _ => rfl
  | r, c :: text, plain => by
      obtain ⟨feed, ret⟩ := plain c List.mem_cons_self
      rw [read, feed_plain r feed ret]
      exact read_plain _ fun d mem => plain d (List.mem_cons_of_mem _ mem)

theorem after_plain : ∀ (r : Reader) {text : List Char}, OneLine text → r.returned = false →
    r.after text = { r with line := text.reverse ++ r.line }
  | r, [], _, _ => rfl
  | r, c :: text, plain, fresh => by
      obtain ⟨feed, ret⟩ := plain c List.mem_cons_self
      rw [after, feed_plain r feed ret,
        after_plain _ (fun d mem => plain d (List.mem_cons_of_mem _ mem)) rfl,
        List.reverse_cons, List.append_assoc, fresh]
      rfl

/-- A line sets its field. -/
theorem setLine_field (r : Reader) {key value : List Char} (plain : ':' ∉ key) :
    r.setLine (key ++ ':' :: ' ' :: value) = r.set key value := by
  have stops : ∀ c ∈ key, (c != ':') = true := by
    intro c mem
    rw [bne_iff_ne]
    rintro rfl
    exact plain mem
  unfold setLine
  rw [List.takeWhile_append_of_pos stops, List.dropWhile_append_of_pos stops]
  simp

end Reader

/-! ## Frames -/

/-- The line that sets a field. -/
def fieldLine (key value : List Char) : List Char := key ++ ':' :: ' ' :: value ++ ['\n']

/-- The lines of an event; an empty line sends it off. -/
def lines (e : Event) : List Char := fieldLine eventField e.name ++ fieldLine dataField e.data

def frame (e : Event) : List Char := lines e ++ ['\n']

/-- A name and data that stand in a line each. -/
structure Framed (e : Event) : Prop where
  named : e.name ≠ []
  name : OneLine e.name
  data : OneLine e.data

theorem oneLine_append {front back : List Char} (one : OneLine front) (other : OneLine back) :
    OneLine (front ++ back) := by
  intro c mem
  rcases List.mem_append.mp mem with before | behind
  · exact one c before
  · exact other c behind

/-- A line that is no comment sets its field. -/
theorem read_line (r : Reader) {line : List Char} (fresh : r.returned = false)
    (begins : r.line = []) (some_line : line ≠ []) (no_comment : line.head? ≠ some ':')
    (one : OneLine line) :
    r.read (line ++ ['\n']) = [] ∧ r.after (line ++ ['\n']) = r.setLine line := by
  have reversed : line.reverse ≠ [] := fun none => some_line (List.reverse_eq_nil_iff.mp none)
  rw [Reader.read_append, Reader.after_append, Reader.read_plain r one,
    Reader.after_plain r one fresh, begins, List.append_nil]
  simp only [Reader.read, Reader.after, Reader.feed, fresh, Reader.endLine, if_neg reversed,
    List.getLast?_reverse, if_neg no_comment, List.reverse_reverse]
  constructor
  · rfl
  · simp only [Bool.false_eq_true, if_false, if_true]
    congr 1
    cases r
    simp_all

/-- A line of a field, from where no line has begun. -/
theorem read_field (r : Reader) {key value : List Char} (fresh : r.returned = false)
    (begins : r.line = []) (some_key : key ≠ []) (plain : ':' ∉ key) (one : OneLine key)
    (other : OneLine value) :
    r.read (fieldLine key value) = [] ∧ r.after (fieldLine key value) = r.set key value := by
  have line : OneLine (key ++ ':' :: ' ' :: value) := by
    refine oneLine_append one ?_
    intro c mem
    rcases List.mem_cons.mp mem with rfl | mem
    · decide
    · rcases List.mem_cons.mp mem with rfl | mem
      · decide
      · exact other c mem
  have no_comment : (key ++ ':' :: ' ' :: value).head? ≠ some ':' := by
    rw [List.head?_append_of_ne_nil _ some_key]
    exact fun head => plain (List.mem_of_head? head)
  have read := read_line r fresh begins (by simp) no_comment line
  rwa [Reader.setLine_field r plain] at read

/-- The lines of a frame set the fields. -/
theorem read_lines {e : Event} (framed : Framed e) :
    ({} : Reader).read (lines e) = [] ∧
      ({} : Reader).after (lines e) = { name := e.name, data := some e.data } := by
  have event_one : OneLine eventField := by simp [OneLine, eventField]
  have data_one : OneLine dataField := by simp [OneLine, dataField]
  obtain ⟨named, name⟩ := @read_field {} eventField e.name rfl rfl (by decide) (by decide)
    event_one framed.name
  obtain ⟨told, data⟩ := @read_field { name := e.name } dataField e.data rfl rfl (by decide)
    (by decide) data_one framed.data
  have set_name : ({} : Reader).set eventField e.name = { name := e.name } := if_pos rfl
  have set_data : ({ name := e.name } : Reader).set dataField e.data =
      { name := e.name, data := some e.data } := by
    rw [Reader.set, if_neg (by decide), if_pos rfl]
    rfl
  rw [set_name] at name
  rw [lines, Reader.read_append, Reader.after_append, named, name, told, data, set_data]
  exact ⟨rfl, rfl⟩

/-- A whole frame is one event, and the reader is as at the beginning. -/
theorem read_frame {e : Event} (framed : Framed e) :
    ({} : Reader).read (frame e) = [e] ∧ ({} : Reader).after (frame e) = {} := by
  obtain ⟨read, after⟩ := read_lines framed
  have sent : ({ name := e.name, data := some e.data } : Reader).sent = some e := by
    simp [Reader.sent, framed.named]
  rw [frame, Reader.read_append, Reader.after_append, read, after]
  simp [Reader.read, Reader.after, Reader.feed, Reader.endLine, sent]

/-- A frame that did not come whole is no event. -/
theorem read_part {e : Event} (framed : Framed e) {part : List Char} (cut : part <+: frame e)
    (short : part ≠ frame e) : ({} : Reader).read part = [] := by
  rw [frame] at cut short
  obtain ⟨more, whole⟩ := (List.prefix_concat_iff.mp cut).resolve_left short
  have read := (read_lines framed).1
  rw [← whole, Reader.read_append] at read
  exact (List.append_eq_nil_iff.mp read).1

/-- **However far a stream came, the events are read whose frames came whole.** -/
theorem read_prefix : ∀ {events : List Event} {received : List Char},
    (∀ e ∈ events, Framed e) → received <+: events.flatMap frame →
    ∃ n, ({} : Reader).read received = events.take n ∧
      (events.take n).flatMap frame <+: received ∧
      (n < events.length → ¬ (events.take (n + 1)).flatMap frame <+: received)
  | [], received, _, came => by
      rw [List.flatMap_nil, List.prefix_nil] at came
      refine ⟨0, ?_, List.nil_prefix, fun more => absurd more (Nat.not_lt_zero 0)⟩
      rw [came]
      rfl
  | e :: events, received, all, came => by
      have first := all e List.mem_cons_self
      rw [List.flatMap_cons] at came
      by_cases whole : frame e <+: received
      · obtain ⟨rest, rfl⟩ := whole
        have later : rest <+: events.flatMap frame := (List.prefix_append_right_inj _).mp came
        obtain ⟨n, read, back, next⟩ :=
          read_prefix (fun f mem => all f (List.mem_cons_of_mem _ mem)) later
        obtain ⟨one, fresh⟩ := read_frame first
        refine ⟨n + 1, ?_, ?_, ?_⟩
        · rw [Reader.read_append, one, fresh, read]
          rfl
        · rw [List.take_succ_cons, List.flatMap_cons]
          exact (List.prefix_append_right_inj _).mpr back
        · intro more
          rw [List.take_succ_cons, List.flatMap_cons, List.prefix_append_right_inj]
          exact next (Nat.lt_of_succ_lt_succ more)
      · refine ⟨0, ?_, List.nil_prefix, ?_⟩
        · have cut : received <+: frame e :=
            (List.prefix_or_prefix_of_prefix came (List.prefix_append _ _)).resolve_right whole
          refine read_part first cut ?_
          rintro rfl
          exact whole List.prefix_rfl
        · intro _
          rw [List.take_succ_cons, List.take_zero, List.flatMap_cons, List.flatMap_nil,
            List.append_nil]
          exact whole

end OpsAssist.Theory.EventStream
