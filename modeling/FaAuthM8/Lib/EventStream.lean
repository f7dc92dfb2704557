import Mathlib.Data.List.Basic

/-!
# The event-stream format

A client reads a stream of characters one by one. A line sets a field of the message in hand, a blank line
hands the message on, and a line that starts with a colon is a comment. A line ends with a carriage return, a
line feed or both. A message without data is not handed on, and what is in hand when a connection is cut off
is lost. The id of the last message is kept over connections.

A sender writes blocks of lines with a blank line after each. Reading a block applies its lines and dispatches
once, with its last character.
-/

namespace EventStream

structure Message where
  type : List Char
  data : List Char
  lastEventId : List Char
deriving DecidableEq, Repr

/-- The state of a client: the buffers of the message in hand, and what it has handed on. -/
structure Reader where
  lastEventId : List Char := []
  id : List Char := []
  type : List Char := []
  data : List Char := []
  line : List Char := []
  afterReturn : Bool := false
  messages : List Message := []
deriving DecidableEq, Repr

namespace Reader

/-- The name and the value of a field; one space after the colon is not part of the value. -/
def splitField (line : List Char) : List Char × List Char :=
  let name := line.takeWhile (· ≠ ':')
  match line.dropWhile (· ≠ ':') with
  | ':' :: ' ' :: value => (name, value)
  | ':' :: value => (name, value)
  | _ => (name, [])

def setField (r : Reader) (name value : List Char) : Reader :=
  if name = ['e', 'v', 'e', 'n', 't'] then { r with type := value }
  else if name = ['d', 'a', 't', 'a'] then { r with data := r.data ++ value ++ ['\n'] }
  else if name = ['i', 'd'] then (if value.contains (Char.ofNat 0) then r else { r with id := value })
  else r

/-- A blank line. -/
def dispatch (r : Reader) : Reader :=
  if r.data = [] then { r with lastEventId := r.id, type := [] }
  else { r with
    lastEventId := r.id
    type := []
    data := []
    messages := r.messages ++
      [⟨if r.type = [] then ['m', 'e', 's', 's', 'a', 'g', 'e'] else r.type, r.data.dropLast, r.id⟩] }

def endLine (r : Reader) : Reader :=
  let after := { r with line := [] }
  match r.line with
  | [] => after.dispatch
  | ':' :: _ => after
  | line => after.setField (splitField line).1 (splitField line).2

def step (r : Reader) (c : Char) : Reader :=
  if c = '\r' then { r.endLine with afterReturn := true }
  else if c = '\n' then
    if r.afterReturn then { r with afterReturn := false } else r.endLine
  else { r with line := r.line ++ [c], afterReturn := false }

def feed (r : Reader) (text : List Char) : Reader := text.foldl step r

/-- A new connection. -/
def reconnect (r : Reader) : Reader where
  lastEventId := r.lastEventId
  id := r.lastEventId
  messages := r.messages

/-- Between two lines. -/
structure AtLine (r : Reader) : Prop where
  line : r.line = []
  afterReturn : r.afterReturn = false

/-- Between two messages. -/
structure AtMessage (r : Reader) : Prop extends AtLine r where
  type : r.type = []
  data : r.data = []
  id : r.id = r.lastEventId

@[simp] theorem reconnect_messages (r : Reader) : r.reconnect.messages = r.messages := rfl

@[simp] theorem reconnect_lastEventId (r : Reader) : r.reconnect.lastEventId = r.lastEventId := rfl

theorem reconnect_atMessage (r : Reader) : r.reconnect.AtMessage :=
  ⟨⟨rfl, rfl⟩, rfl, rfl, rfl⟩

@[simp] theorem feed_nil (r : Reader) : r.feed [] = r := rfl

theorem feed_append (r : Reader) (first second : List Char) :
    r.feed (first ++ second) = (r.feed first).feed second :=
  List.foldl_append

theorem feed_concat (r : Reader) (text : List Char) (c : Char) :
    r.feed (text ++ [c]) = (r.feed text).step c := by
  rw [feed_append]
  rfl

end Reader

def OneLine (text : List Char) : Prop := '\r' ∉ text ∧ '\n' ∉ text

theorem OneLine.append {first second : List Char} (hfirst : OneLine first) (hsecond : OneLine second) :
    OneLine (first ++ second) := by
  constructor
  · simpa using ⟨hfirst.1, hsecond.1⟩
  · simpa using ⟨hfirst.2, hsecond.2⟩

theorem OneLine.of_prefix {first second : List Char} (hline : OneLine second) (hpart : first <+: second) :
    OneLine first :=
  ⟨fun hmem => hline.1 (hpart.subset hmem), fun hmem => hline.2 (hpart.subset hmem)⟩

/-- A line as a sender writes it. -/
inductive Line
  | comment (text : List Char)
  | field (name value : List Char)
deriving DecidableEq, Repr

namespace Line

def text : Line → List Char
  | comment text => ':' :: text
  | field name value => name ++ ':' :: ' ' :: value

/-- The line, with the line feed at its end. -/
def render (line : Line) : List Char := line.text ++ ['\n']

inductive WellFormed : Line → Prop
  | comment {text : List Char} (htext : OneLine text) : WellFormed (.comment text)
  | field {name value : List Char} (hname : name ≠ []) (hcolon : ':' ∉ name) (hline : OneLine name)
      (hvalue : OneLine value) : WellFormed (.field name value)

theorem WellFormed.oneLine {line : Line} (hline : line.WellFormed) : OneLine line.text := by
  cases hline with
  | comment htext =>
      have hcolon : OneLine [':'] := ⟨by decide, by decide⟩
      exact hcolon.append htext
  | field _ _ hname hvalue =>
      have hcolon : OneLine [':', ' '] := ⟨by decide, by decide⟩
      exact hname.append (hcolon.append hvalue)

end Line

/-- A block of lines, with the blank line at its end. -/
def block (lines : List Line) : List Char := lines.flatMap Line.render ++ ['\n']

namespace Reader

def apply (r : Reader) : Line → Reader
  | .comment _ => r
  | .field name value => r.setField name value

variable {r : Reader} {line : Line} {lines : List Line}

theorem setField_eq (r : Reader) (name value : List Char) :
    (r.setField name value).lastEventId = r.lastEventId ∧
      (r.setField name value).messages = r.messages ∧ (r.setField name value).line = r.line ∧
      (r.setField name value).afterReturn = r.afterReturn := by
  rw [setField]
  split
  · exact ⟨rfl, rfl, rfl, rfl⟩
  · split
    · exact ⟨rfl, rfl, rfl, rfl⟩
    · split
      · split
        · exact ⟨rfl, rfl, rfl, rfl⟩
        · exact ⟨rfl, rfl, rfl, rfl⟩
      · exact ⟨rfl, rfl, rfl, rfl⟩

theorem AtLine.apply (hat : r.AtLine) (line : Line) : (r.apply line).AtLine := by
  cases line with
  | comment text => exact hat
  | field name value =>
      obtain ⟨-, -, hline, hreturn⟩ := r.setField_eq name value
      exact ⟨hline.trans hat.line, hreturn.trans hat.afterReturn⟩

theorem AtLine.foldl_apply (hat : r.AtLine) (lines : List Line) : (lines.foldl Reader.apply r).AtLine := by
  induction lines generalizing r with
  | nil => exact hat
  | cons line rest ih => exact ih (hat.apply line)

theorem apply_unchanged (r : Reader) (line : Line) :
    (r.apply line).lastEventId = r.lastEventId ∧ (r.apply line).messages = r.messages := by
  cases line with
  | comment text => exact ⟨rfl, rfl⟩
  | field name value => exact ⟨(r.setField_eq name value).1, (r.setField_eq name value).2.1⟩

theorem feed_text (hreturn : r.afterReturn = false) {text : List Char} (htext : OneLine text) :
    r.feed text = { r with line := r.line ++ text } := by
  induction text generalizing r with
  | nil => simp
  | cons c rest ih =>
      obtain ⟨hr, hn⟩ := htext
      rw [List.mem_cons, not_or] at hr hn
      have hstep : r.step c = { r with line := r.line ++ [c], afterReturn := false } := by
        rw [step, if_neg (Ne.symm hr.1), if_neg (Ne.symm hn.1)]
      show (r.step c).feed rest = _
      rw [hstep, ih rfl ⟨hr.2, hn.2⟩, hreturn]
      simp

theorem splitField_field {name value : List Char} (hcolon : ':' ∉ name) :
    splitField (name ++ ':' :: ' ' :: value) = (name, value) := by
  have hall : ∀ c ∈ name, (decide (c ≠ ':')) = true := by
    intro c hc
    rw [decide_eq_true_iff]
    rintro rfl
    exact hcolon hc
  rw [splitField, List.takeWhile_append_of_pos hall, List.dropWhile_append_of_pos hall]
  simp

theorem feed_line (hat : r.AtLine) (hline : line.WellFormed) : r.feed line.render = r.apply line := by
  rw [Line.render, feed_concat, feed_text hat.afterReturn hline.oneLine, hat.line, List.nil_append, step,
    if_neg (by decide), if_pos rfl, hat.afterReturn, if_neg Bool.false_ne_true]
  have hself : { r with line := [], afterReturn := false } = r := by
    rw [← hat.line, ← hat.afterReturn]
  cases hline with
  | comment => exact hself
  | @field name value hname hcolon _ _ =>
      obtain ⟨first, rest, rfl⟩ := List.exists_cons_of_ne_nil hname
      have hfirst : first ≠ ':' := by
        rintro rfl
        exact hcolon List.mem_cons_self
      have hsplit : splitField (first :: (rest ++ ':' :: ' ' :: value)) = (first :: rest, value) :=
        splitField_field hcolon
      simp only [Line.text, List.cons_append, endLine, Reader.apply]
      split
      · next heq => cases heq
      · next heq => exact absurd (List.cons.inj heq).1 hfirst
      · rw [hsplit, hself]

theorem feed_lines (hat : r.AtLine) (hlines : ∀ line ∈ lines, line.WellFormed) :
    r.feed (lines.flatMap Line.render) = lines.foldl Reader.apply r := by
  induction lines generalizing r with
  | nil => rfl
  | cons line rest ih =>
      rw [List.flatMap_cons, feed_append, feed_line hat (hlines line List.mem_cons_self)]
      exact ih (hat.apply line) fun line' hmem => hlines line' (List.mem_cons_of_mem _ hmem)

/-- A block is read as its lines, and dispatches once. -/
theorem feed_block (hat : r.AtLine) (hlines : ∀ line ∈ lines, line.WellFormed) :
    r.feed (block lines) = (lines.foldl Reader.apply r).dispatch := by
  have hafter := hat.foldl_apply lines
  rw [block, feed_concat, feed_lines hat hlines, step, if_neg (by decide), if_pos rfl, hafter.afterReturn,
    if_neg Bool.false_ne_true, endLine, hafter.line]
  show Reader.dispatch { lines.foldl Reader.apply r with line := [] } = _
  rw [← hafter.line]

theorem dispatch_atMessage (hat : r.AtLine) : r.dispatch.AtMessage := by
  rw [dispatch]
  split
  · next hdata => exact ⟨⟨hat.line, hat.afterReturn⟩, rfl, hdata, rfl⟩
  · exact ⟨⟨hat.line, hat.afterReturn⟩, rfl, rfl, rfl⟩

theorem AtMessage.feed_block (hat : r.AtMessage) (hlines : ∀ line ∈ lines, line.WellFormed) :
    (r.feed (block lines)).AtMessage := by
  rw [Reader.feed_block hat.toAtLine hlines]
  exact dispatch_atMessage (hat.toAtLine.foldl_apply lines)

theorem feed_part_of_line (hat : r.AtLine) (hline : line.WellFormed) {part : List Char}
    (hpart : part <+: line.render) :
    (r.feed part).lastEventId = r.lastEventId ∧ (r.feed part).messages = r.messages := by
  rcases List.prefix_concat_iff.1 hpart with heq | hinside
  · rw [heq]
    show (r.feed line.render).lastEventId = _ ∧ (r.feed line.render).messages = _
    rw [feed_line hat hline]
    exact r.apply_unchanged line
  · rw [feed_text hat.afterReturn (hline.oneLine.of_prefix hinside)]
    exact ⟨rfl, rfl⟩

theorem feed_part_of_lines (hat : r.AtLine) (hlines : ∀ line ∈ lines, line.WellFormed) {part : List Char}
    (hpart : part <+: lines.flatMap Line.render) :
    (r.feed part).lastEventId = r.lastEventId ∧ (r.feed part).messages = r.messages := by
  induction lines generalizing r part with
  | nil =>
      rw [List.prefix_nil.1 hpart]
      exact ⟨rfl, rfl⟩
  | cons line rest ih =>
      have hline := hlines line List.mem_cons_self
      rw [List.flatMap_cons] at hpart
      obtain ⟨others, hothers⟩ := hpart
      rcases List.append_eq_append_iff.1 hothers with ⟨missing, hinside, -⟩ | ⟨beyond, heq, hbeyond⟩
      · exact feed_part_of_line hat hline ⟨missing, hinside.symm⟩
      · rw [heq, feed_append, feed_line hat hline]
        obtain ⟨hid, hmessages⟩ := ih (hat.apply line)
          (fun line' hmem => hlines line' (List.mem_cons_of_mem _ hmem)) ⟨others, hbeyond.symm⟩
        obtain ⟨hid', hmessages'⟩ := r.apply_unchanged line
        exact ⟨hid.trans hid', hmessages.trans hmessages'⟩

/-- A block that is cut off hands nothing on. -/
theorem feed_part_of_block (hat : r.AtLine) (hlines : ∀ line ∈ lines, line.WellFormed)
    {part rest : List Char} (hpart : block lines = part ++ rest) (hrest : rest ≠ []) :
    (r.feed part).lastEventId = r.lastEventId ∧ (r.feed part).messages = r.messages := by
  refine feed_part_of_lines hat hlines ?_
  rcases List.prefix_concat_iff.1 (⟨rest, hpart.symm⟩ : part <+: block lines) with heq | hinside
  · refine absurd ?_ hrest
    have hself : part ++ rest = part ++ [] := by
      rw [← hpart, heq, List.append_nil, block]
    exact List.append_cancel_left hself
  · exact hinside

end Reader

end EventStream
