import BitBlinder.Runs

/-!
# Replies on the control port

`TorControlProtocol` reads the lines that Tor writes on the control connection, and
matches the replies among them with the commands. A `str` is the list of its
characters. The event handler is set as soon as the connection is made; it takes
the lines of an event one by one, and `handled` lists them. A callback is the
number of its command.
-/

namespace BitBlinder.Tor.TorCtl

set_option autoImplicit false

abbrev Text := List Char

/-! ### `TorUtil` -/

/-- `s.split("\r\n")`. -/
def splitCRLF : Text → List Text
  | [] => [[]]
  | '\r' :: '\n' :: s => [] :: splitCRLF s
  | c :: s => (splitCRLF s).modifyHead (c :: ·)

def escapeLine : Text → Text
  | '.' :: s => '.' :: '.' :: s
  | s => s

def unescapeLine : Text → Text
  | '.' :: s => s
  | s => s

/-- `re.split(r"\r?\n", s)`. -/
def splitNewlines (s : Text) : List Text :=
  match (s.splitOn '\n').reverse with
  | [] => []
  | last :: lines => (lines.map fun line => if line.getLast? = some '\r' then line.dropLast else line).reverse ++ [last]

def escapeDots (s : Text) : Text :=
  let lines := splitNewlines s
  let lines := if lines.getLast? = some [] then lines.dropLast else lines
  List.intercalate ['\r', '\n'] (lines.map escapeLine ++ [['.', '\r', '\n']])

/-- `if lines and lines[-1]: lines.append("")`. -/
def endLine (lines : List Text) : List Text := if lines.getLast? = some [] then lines else lines ++ [[]]

def unescapeDots (s : Text) : Text := List.intercalate ['\n'] (endLine ((splitCRLF s).map unescapeLine))

/-! ### `TorControlProtocol` -/

/-- One `(code, text, data)` of a reply or an event. -/
structure ReplyLine where
  code : Text
  text : Text
  data : Option Text
  deriving DecidableEq

inductive ProtocolError where
  | tooShort
  | unknownType (tp : Char)

structure LineReader where
  lines : List ReplyLine
  multiline : Bool
  more : List Text

structure TorControlProtocol extends LineReader where
  callbackQueue : List Nat
  closedEx : Option ProtocolError
  fired : List (Nat × List ReplyLine)
  handled : List ReplyLine

/-- "650 OK". -/
def OK_650 : Text := ['6', '5', '0', ' ', 'O', 'K']

namespace LineReader

/-- Whether the first line has a code from 600 on. -/
def isEvent (reader : LineReader) : Bool := reader.lines.head?.any fun line => line.code.head? = some '6'

/-- `parse_line`: whether an event or a reply is complete, if one is. -/
def parseLine (line : Text) (reader : LineReader) : Except ProtocolError (Option Bool × LineReader) :=
  if reader.multiline then
    if line = ['.'] ∨ line = OK_650 then
      let data := unescapeDots (List.intercalate ['\r', '\n'] reader.more)
      let reader := { reader with
        lines := reader.lines.modifyHead fun first => { first with data := some data }
        multiline := false }
      if reader.isEvent then .ok (some true, reader)
      else .ok (none, { reader with more := reader.more ++ [line] })
    else .ok (none, { reader with more := reader.more ++ [line] })
  else
    match line with
    | a :: b :: c :: tp :: s =>
      let code := [a, b, c]
      if tp = '-' then .ok (none, { reader with lines := reader.lines ++ [⟨code, s, none⟩] })
      else if tp = ' ' then
        let reader := { reader with lines := reader.lines ++ [⟨code, s, none⟩] }
        .ok (some reader.isEvent, reader)
      else if tp ≠ '+' then .error (.unknownType tp)
      else .ok (none, { lines := reader.lines ++ [⟨code, s, some []⟩], multiline := true, more := [] })
    | _ => .error .tooShort

end LineReader

/-- The first line is the OK that only closes an event. -/
def ReplyLine.isOk (line : ReplyLine) : Bool := line.code = ['6', '5', '0'] ∧ line.text = ['O', 'K']

namespace TorControlProtocol

def handleEvent (reply : List ReplyLine) (conn : TorControlProtocol) : TorControlProtocol :=
  match reply with
  | [] => conn
  | first :: _ => if first.isOk then conn else { conn with handled := conn.handled ++ reply }

/-- `self._callbackQueue.pop(0)`, and the call; an exception is logged. -/
def callback (reply : List ReplyLine) (conn : TorControlProtocol) : TorControlProtocol :=
  match conn.callbackQueue with
  | [] => conn
  | cb :: queue => { conn with callbackQueue := queue, fired := conn.fired ++ [(cb, reply)] }

def lineReceived (line : Text) (conn : TorControlProtocol) : TorControlProtocol :=
  match conn.toLineReader.parseLine line with
  | .error ex => { conn with closedEx := some ex }
  | .ok (none, reader) => { conn with toLineReader := reader }
  | .ok (some isEvent, reader) =>
    let conn := { conn with toLineReader := { reader with lines := [] } }
    if isEvent then conn.handleEvent reader.lines else conn.callback reader.lines

end TorControlProtocol

/-! ### What Tor writes -/

structure Line where
  chars : Text
  no_newline : '\n' ∉ chars

structure Code where
  chars : Text
  length_eq : chars.length = 3
  no_newline : '\n' ∉ chars

def Code.isEvent (code : Code) : Bool := code.chars.head? = some '6'

/-- The lines of the data on the wire. -/
def wireData (data : List Line) : List Text := data.map fun line => escapeLine line.chars

/-- An entry that is not the last one. -/
inductive Part where
  | mid (code : Code) (text : Line)
  | block (code : Code) (text : Line) (data : List Line)

namespace Part

def code : Part → Code
  | mid code _ | block code _ _ => code

def IsMid : Part → Prop
  | mid .. => True
  | block .. => False

instance : ∀ part : Part, Decidable part.IsMid
  | mid .. => isTrue trivial
  | block .. => isFalse id

def data : Part → List Line
  | mid .. => []
  | block _ _ data => data

def wire : Part → List Text
  | mid code text => [code.chars ++ '-' :: text.chars]
  | block code text data => (code.chars ++ '+' :: text.chars) :: wireData data ++ [['.']]

end Part

/-- The data as one text. -/
def dataText (data : List Line) : Text := data.flatMap fun line => line.chars ++ ['\n']

def Part.entry : Part → ReplyLine
  | .mid code text => ⟨code.chars, text.chars, none⟩
  | .block code text data => ⟨code.chars, text.chars, some (dataText data)⟩

/-- A reply, or an event. -/
structure Message (event : Bool) where
  parts : List Part
  code : Code
  text : Line
  isEvent_eq : ∀ other ∈ code :: parts.map Part.code, other.isEvent = event

namespace Message
variable {event : Bool}

def last (message : Message event) : ReplyLine := ⟨message.code.chars, message.text.chars, none⟩

def wire (message : Message event) : List Text :=
  message.parts.flatMap Part.wire ++ [message.code.chars ++ ' ' :: message.text.chars]

def entries (message : Message event) : List ReplyLine := message.parts.map Part.entry ++ [message.last]

end Message

/-! ### Text that is split and joined -/

theorem splitCRLF_crlf (s : Text) : splitCRLF ('\r' :: '\n' :: s) = [] :: splitCRLF s := by
  simp [splitCRLF]

theorem splitCRLF_cons {c : Char} {s : Text} (h : s.head? ≠ some '\n') :
    splitCRLF (c :: s) = (splitCRLF s).modifyHead (c :: ·) := by
  cases s with
  | nil => simp [splitCRLF]
  | cons d s =>
    have hd : d ≠ '\n' := fun heq => h (by rw [heq]; rfl)
    rw [splitCRLF]
    intro s' _ hs
    exact absurd (List.cons.inj hs).1 hd

theorem splitCRLF_line {line : Text} (h : '\n' ∉ line) : splitCRLF line = [line] := by
  induction line with
  | nil => rfl
  | cons c line ih =>
    have hline : '\n' ∉ line := fun hmem => h (List.mem_cons_of_mem _ hmem)
    rw [splitCRLF_cons, ih hline]
    · rfl
    · exact fun hhead => hline (List.mem_of_head? hhead)

theorem splitCRLF_append {line : Text} (h : '\n' ∉ line) (s : Text) :
    splitCRLF (line ++ '\r' :: '\n' :: s) = line :: splitCRLF s := by
  induction line with
  | nil => exact splitCRLF_crlf s
  | cons c line ih =>
    have hline : '\n' ∉ line := fun hmem => h (List.mem_cons_of_mem _ hmem)
    rw [List.cons_append, splitCRLF_cons, ih hline]
    · rfl
    · cases line with
      | nil => simp
      | cons d line => exact fun hhead => hline (List.mem_of_head? hhead)

theorem splitCRLF_intercalate {lines : List Text} (hne : lines ≠ []) (h : ∀ line ∈ lines, '\n' ∉ line) :
    splitCRLF (List.intercalate ['\r', '\n'] lines) = lines := by
  induction lines with
  | nil => exact absurd rfl hne
  | cons line lines ih =>
    have hline := h line List.mem_cons_self
    cases lines with
    | nil =>
      rw [List.intercalate_singleton]
      exact splitCRLF_line hline
    | cons next lines =>
      have hrest := ih (List.cons_ne_nil _ _) fun other hother => h other (List.mem_cons_of_mem _ hother)
      rw [List.intercalate_cons_cons, List.append_assoc]
      exact (splitCRLF_append hline _).trans (congrArg (line :: ·) hrest)

/-! ### Data -/

theorem unescapeLine_of_head {line : Text} (h : ∀ s, line ≠ '.' :: s) : unescapeLine line = line := by
  fun_cases unescapeLine line with
  | case1 s => exact absurd rfl (h s)
  | case2 => rfl

theorem unescapeLine_escapeLine (line : Text) : unescapeLine (escapeLine line) = line := by
  fun_cases escapeLine line with
  | case1 s => rfl
  | case2 _ h => exact unescapeLine_of_head h

theorem escapeLine_newline {line : Text} (h : '\n' ∉ line) : '\n' ∉ escapeLine line := by
  fun_cases escapeLine line with
  | case1 s =>
    intro hmem
    rcases List.mem_cons.mp hmem with hdot | hmem
    · cases hdot
    · exact h hmem
  | case2 => exact h

theorem unescapeLine_newline {line : Text} (h : '\n' ∉ line) : '\n' ∉ unescapeLine line := by
  fun_cases unescapeLine line with
  | case1 s => exact fun hmem => h (List.mem_cons_of_mem _ hmem)
  | case2 => exact h

theorem mem_endLine {lines : List Text} {line : Text} (h : line ∈ endLine lines) : line ∈ lines ∨ line = [] := by
  unfold endLine at h
  split at h
  · exact Or.inl h
  · exact (List.mem_append.mp h).imp_right List.mem_singleton.mp

theorem endLine_ne_nil (lines : List Text) : endLine lines ≠ [] := by
  unfold endLine
  split
  · rename_i hlast
    intro hnil
    rw [hnil] at hlast
    cases hlast
  · exact List.append_ne_nil_of_right_ne_nil _ (List.cons_ne_nil _ _)

/-- The lines of the text that `unescape_dots` makes. -/
def unescapedLines (more : List Text) : List Text := endLine (if more = [] then [[]] else more.map unescapeLine)

theorem unescapeDots_intercalate {more : List Text} (h : ∀ line ∈ more, '\n' ∉ line) :
    unescapeDots (List.intercalate ['\r', '\n'] more) = List.intercalate ['\n'] (unescapedLines more) := by
  unfold unescapeDots unescapedLines
  cases more with
  | nil => rfl
  | cons line more => rw [splitCRLF_intercalate (List.cons_ne_nil _ _) h, if_neg (List.cons_ne_nil _ _)]

theorem mem_unescapedLines {more : List Text} {line : Text} (h : line ∈ unescapedLines more) :
    line ∈ more.map unescapeLine ∨ line = [] := by
  rcases mem_endLine h with h | rfl
  · split at h
    · exact Or.inr (List.mem_singleton.mp h)
    · exact Or.inl h
  · exact Or.inr rfl

theorem unescapedLines_newline {more : List Text} (h : ∀ line ∈ more, '\n' ∉ line) :
    ∀ line ∈ unescapedLines more, '\n' ∉ line := by
  intro line hline
  rcases mem_unescapedLines hline with hline | rfl
  · obtain ⟨wire, hwire, rfl⟩ := List.mem_map.mp hline
    exact unescapeLine_newline (h wire hwire)
  · exact List.not_mem_nil

theorem dataText_eq (data : List Line) :
    dataText data = List.intercalate ['\n'] (data.map Line.chars ++ [[]]) := by
  unfold dataText
  induction data with
  | nil => rfl
  | cons line data ih =>
    have hne : data.map Line.chars ++ [[]] ≠ [] := List.append_ne_nil_of_right_ne_nil _ (List.cons_ne_nil _ _)
    rw [List.flatMap_cons, ih, List.map_cons, List.cons_append, List.intercalate_cons_of_ne_nil hne]

theorem mem_dataLines {data : List Line} : ∀ line ∈ data.map Line.chars ++ [[]], '\n' ∉ line := by
  intro line hline
  rcases List.mem_append.mp hline with hline | hline
  · obtain ⟨source, -, rfl⟩ := List.mem_map.mp hline
    exact source.no_newline
  · obtain rfl := List.mem_singleton.mp hline
    exact List.not_mem_nil

theorem splitOn_dataText (data : List Line) : (dataText data).splitOn '\n' = data.map Line.chars ++ [[]] := by
  rw [dataText_eq]
  exact List.splitOn_intercalate _ mem_dataLines (List.append_ne_nil_of_right_ne_nil _ (List.cons_ne_nil _ _))

/-- `escape_dots` makes of the data what is on the wire. -/
theorem escapeDots_dataText {data : List Line} (h : ∀ line ∈ data, line.chars.getLast? ≠ some '\r') :
    escapeDots (dataText data) = List.intercalate ['\r', '\n'] (wireData data ++ [['.', '\r', '\n']]) := by
  have hstrip : (data.map Line.chars).reverse.map (fun line =>
      if line.getLast? = some '\r' then line.dropLast else line) = (data.map Line.chars).reverse := by
    refine (List.map_congr_left fun line hline => ?_).trans (List.map_id _)
    obtain ⟨source, hsource, rfl⟩ := List.mem_map.mp (List.mem_reverse.mp hline)
    exact if_neg (h source hsource)
  have hsplit : splitNewlines (dataText data) = data.map Line.chars ++ [[]] := by
    unfold splitNewlines
    rw [splitOn_dataText, List.reverse_append, List.reverse_singleton, List.singleton_append]
    dsimp only
    rw [hstrip, List.reverse_reverse]
  unfold escapeDots
  rw [hsplit]
  dsimp only
  rw [if_pos List.getLast?_concat, List.dropLast_concat, List.map_map]
  rfl

/-- A text has the lines that it was made of. -/
theorem dataText_eq_iff (data : List Line) {more : List Text} (h : ∀ line ∈ more, '\n' ∉ line) :
    dataText data = unescapeDots (List.intercalate ['\r', '\n'] more) ↔
      data.map Line.chars ++ [[]] = unescapedLines more := by
  rw [unescapeDots_intercalate h]
  constructor
  · intro heq
    have hsplit := congrArg (List.splitOn '\n') heq
    rwa [splitOn_dataText, List.splitOn_intercalate _ (unescapedLines_newline h) (endLine_ne_nil _)] at hsplit
  · intro heq
    rw [dataText_eq, heq]

theorem wireData_newline (data : List Line) : ∀ line ∈ wireData data, '\n' ∉ line := by
  intro line hline
  obtain ⟨source, -, rfl⟩ := List.mem_map.mp hline
  exact escapeLine_newline source.no_newline

/-- What is read of the data is the data, unless its last line is empty. -/
theorem read_eq_dataText_iff (data : List Line) :
    unescapeDots (List.intercalate ['\r', '\n'] (wireData data)) = dataText data ↔
      (data.map Line.chars).getLast? ≠ some [] := by
  have hunescaped : (wireData data).map unescapeLine = data.map Line.chars := by
    unfold wireData
    rw [List.map_map]
    exact List.map_congr_left fun line _ => unescapeLine_escapeLine line.chars
  rw [eq_comm, dataText_eq_iff data (wireData_newline data)]
  unfold unescapedLines
  rw [hunescaped]
  cases data with
  | nil => exact iff_of_true rfl (by simp)
  | cons line data =>
    have hne : wireData (line :: data) ≠ [] := List.cons_ne_nil _ _
    rw [if_neg hne]
    unfold endLine
    split
    · rename_i hlast
      constructor
      · intro hlines
        have hlength := congrArg List.length hlines
        rw [List.length_append, List.length_singleton] at hlength
        omega
      · exact fun hne => absurd hlast hne
    · rename_i hlast
      exact iff_of_true rfl hlast

/-- A line of the data that was read came as it is, or with a dot in front. -/
theorem mem_of_dataText_eq {data : List Line} {more : List Text} (h : ∀ line ∈ more, '\n' ∉ line)
    (heq : dataText data = unescapeDots (List.intercalate ['\r', '\n'] more)) {line : Line} (hline : line ∈ data)
    (hne : line.chars ≠ []) : line.chars ∈ more ∨ '.' :: line.chars ∈ more := by
  have hlines := (dataText_eq_iff data h).mp heq
  have hmem : line.chars ∈ unescapedLines more := by
    rw [← hlines]
    exact List.mem_append_left _ (List.mem_map_of_mem hline)
  have hmore := (mem_unescapedLines hmem).resolve_right hne
  obtain ⟨wire, hwire, hchars⟩ := List.mem_map.mp hmore
  rw [← hchars]
  fun_cases unescapeLine wire with
  | case1 s => exact Or.inr hwire
  | case2 => exact Or.inl hwire

/-! ### Reading a message -/

/-- The lines are read without an error, and these events and replies are complete in turn. -/
inductive Reads : LineReader → List Text → LineReader → List (Bool × List ReplyLine) → Prop where
  | nil (reader : LineReader) : Reads reader [] reader []
  | quiet {reader next final : LineReader} {line : Text} {rest : List Text} {complete : List (Bool × List ReplyLine)} :
      reader.parseLine line = .ok (none, next) → Reads next rest final complete →
        Reads reader (line :: rest) final complete
  | complete {reader next final : LineReader} {line : Text} {rest : List Text} {isEvent : Bool}
      {complete : List (Bool × List ReplyLine)} :
      reader.parseLine line = .ok (some isEvent, next) → Reads { next with lines := [] } rest final complete →
        Reads reader (line :: rest) final ((isEvent, next.lines) :: complete)

theorem Reads.append {reader next final : LineReader} {lines rest : List Text}
    {before after : List (Bool × List ReplyLine)} (h : Reads reader lines next before)
    (hrest : Reads next rest final after) : Reads reader (lines ++ rest) final (before ++ after) := by
  induction h with
  | nil => exact hrest
  | quiet hparse _ ih => exact .quiet hparse (ih hrest)
  | complete hparse _ ih => exact .complete hparse (ih hrest)

theorem Reads.complete_nil {reader final : LineReader} {complete : List (Bool × List ReplyLine)}
    (h : Reads reader [] final complete) : complete = [] := by
  cases h with
  | nil => rfl

def setData (data : Text) (lines : List ReplyLine) : List ReplyLine :=
  lines.modifyHead fun first => { first with data := some data }

/-- What `parse_line` makes of the data. -/
def readData (data : List Line) : Text := unescapeDots (List.intercalate ['\r', '\n'] (wireData data))

/-- The first lines of a reply, after those that are there, as they are read. -/
def readParts (lines : List ReplyLine) : List Part → List ReplyLine
  | [] => lines
  | .mid code text :: parts => readParts (lines ++ [⟨code.chars, text.chars, none⟩]) parts
  | .block code text data :: parts =>
    readParts (setData (readData data) (lines ++ [⟨code.chars, text.chars, some []⟩])) parts

/-- An event is passed on at the end of each of its data. -/
def readEvent (lines : List ReplyLine) (last : ReplyLine) : List Part → List (List ReplyLine)
  | [] => [lines ++ [last]]
  | .mid code text :: parts => readEvent (lines ++ [⟨code.chars, text.chars, none⟩]) last parts
  | .block code text data :: parts =>
    setData (readData data) (lines ++ [⟨code.chars, text.chars, some []⟩]) :: readEvent [] last parts

/-- All lines have codes of events, or all have codes of replies. -/
def CodesAre (event : Bool) (lines : List ReplyLine) : Prop :=
  ∀ line ∈ lines, decide (line.code.head? = some '6') = event

section
variable {event : Bool} {lines : List ReplyLine} {more : List Text}

theorem codesAre_nil (event : Bool) : CodesAre event [] := fun _ h => absurd h List.not_mem_nil

theorem CodesAre.append_entry (h : CodesAre event lines) {code : Code} (hcode : code.isEvent = event) (text : Text)
    (data : Option Text) : CodesAre event (lines ++ [⟨code.chars, text, data⟩]) := by
  intro line hline
  rcases List.mem_append.mp hline with hline | hline
  · exact h line hline
  · obtain rfl := List.mem_singleton.mp hline
    exact hcode

theorem CodesAre.setData (h : CodesAre event lines) (data : Text) : CodesAre event (setData data lines) := by
  cases lines with
  | nil => exact h
  | cons first lines =>
    intro line hline
    rcases List.mem_cons.mp hline with rfl | hline
    · exact h first List.mem_cons_self
    · exact h line (List.mem_cons_of_mem _ hline)

theorem isEvent_of_codes (more : List Text) (h : CodesAre event lines) (hne : lines ≠ []) (multiline : Bool) :
    (⟨lines, multiline, more⟩ : LineReader).isEvent = event := by
  cases lines with
  | nil => exact absurd rfl hne
  | cons first lines => exact h first List.mem_cons_self

theorem parseLine_entry (code : Code) (tp : Char) (text : Text) :
    (⟨lines, false, more⟩ : LineReader).parseLine (code.chars ++ tp :: text) =
      if tp = '-' then .ok (none, ⟨lines ++ [⟨code.chars, text, none⟩], false, more⟩)
      else if tp = ' ' then
        .ok (some (⟨lines ++ [⟨code.chars, text, none⟩], false, more⟩ : LineReader).isEvent,
          ⟨lines ++ [⟨code.chars, text, none⟩], false, more⟩)
      else if tp ≠ '+' then .error (.unknownType tp)
      else .ok (none, ⟨lines ++ [⟨code.chars, text, some []⟩], true, []⟩) := by
  obtain ⟨a, b, c, hcode⟩ := List.length_eq_three.mp code.length_eq
  rw [hcode]
  rfl

theorem parseLine_data {line : Text} (hdot : line ≠ ['.']) (hok : line ≠ OK_650) :
    (⟨lines, true, more⟩ : LineReader).parseLine line = .ok (none, ⟨lines, true, more ++ [line]⟩) := by
  unfold LineReader.parseLine
  rw [if_pos rfl, if_neg (not_or.mpr ⟨hdot, hok⟩)]

theorem data_reads (more : List Text) {data : List Text} (hdata : ∀ line ∈ data, line ≠ ['.'] ∧ line ≠ OK_650) :
    Reads ⟨lines, true, more⟩ data ⟨lines, true, more ++ data⟩ [] := by
  induction data generalizing more with
  | nil =>
    rw [List.append_nil]
    exact .nil _
  | cons line data ih =>
    obtain ⟨hdot, hok⟩ := hdata line List.mem_cons_self
    have hrest := ih (more ++ [line]) fun other hother => hdata other (List.mem_cons_of_mem _ hother)
    rw [List.append_assoc, List.singleton_append] at hrest
    exact .quiet (parseLine_data hdot hok) hrest

theorem escapeLine_ne_dot (line : Text) : escapeLine line ≠ ['.'] := by
  fun_cases escapeLine line with
  | case1 s => simp
  | case2 _ h => exact h []

/-- Only a line that comes with a dot in front begins with one. -/
theorem escapeLine_eq_ok {line : Text} (h : escapeLine line = OK_650) : line = OK_650 := by
  fun_cases escapeLine line with
  | case1 s =>
    rw [escapeLine] at h
    cases h
  | case2 _ hdot => rwa [escapeLine.eq_2 line hdot] at h

theorem wireData_ends {data : List Line} (hok : OK_650 ∉ data.map Line.chars) :
    ∀ line ∈ wireData data, line ≠ ['.'] ∧ line ≠ OK_650 := by
  intro line hline
  obtain ⟨source, hsource, rfl⟩ := List.mem_map.mp hline
  refine ⟨escapeLine_ne_dot source.chars, fun heq => hok ?_⟩
  rw [← escapeLine_eq_ok heq]
  exact List.mem_map_of_mem hsource

theorem setData_ne_nil (hne : lines ≠ []) (data : Text) : setData data lines ≠ [] := by
  cases lines with
  | nil => exact absurd rfl hne
  | cons first lines => exact List.cons_ne_nil _ _

/-- At the dot the data goes to the first line that is there. -/
theorem parseLine_dot (more : List Text) (h : CodesAre event lines) (hne : lines ≠ []) :
    (⟨lines, true, more⟩ : LineReader).parseLine ['.'] =
      let lines := setData (unescapeDots (List.intercalate ['\r', '\n'] more)) lines
      if event then .ok (some true, ⟨lines, false, more⟩) else .ok (none, ⟨lines, false, more ++ [['.']]⟩) := by
  have hevent := isEvent_of_codes more (h.setData (unescapeDots (List.intercalate ['\r', '\n'] more)))
    (setData_ne_nil hne _) false
  unfold LineReader.parseLine
  rw [if_pos rfl, if_pos (Or.inl rfl)]
  dsimp only
  rw [← hevent]
  rfl

/-- The lines of a block up to the dot. -/
theorem block_reads_data {data : List Line} (hok : OK_650 ∉ data.map Line.chars) (code : Code) (text : Line) :
    Reads ⟨lines, false, more⟩ ((code.chars ++ '+' :: text.chars) :: wireData data)
      ⟨lines ++ [⟨code.chars, text.chars, some []⟩], true, wireData data⟩ [] := by
  have hfirst : (⟨lines, false, more⟩ : LineReader).parseLine (code.chars ++ '+' :: text.chars) =
      .ok (none, ⟨lines ++ [⟨code.chars, text.chars, some []⟩], true, []⟩) := by
    rw [parseLine_entry]
    rfl
  exact .quiet hfirst (data_reads [] (wireData_ends hok))

theorem block_reads_reply {code : Code} {data : List Line} (hlines : CodesAre false lines)
    (hcode : code.isEvent = false) (hok : OK_650 ∉ data.map Line.chars) (text : Line) :
    Reads ⟨lines, false, more⟩ (Part.block code text data).wire
      ⟨setData (readData data) (lines ++ [⟨code.chars, text.chars, some []⟩]), false, wireData data ++ [['.']]⟩ [] := by
  have hcodes := hlines.append_entry hcode text.chars (some [])
  have hdot := parseLine_dot (wireData data) hcodes (List.append_ne_nil_of_right_ne_nil _ (List.cons_ne_nil _ _))
  exact (block_reads_data hok code text).append (.quiet hdot (.nil _))

theorem block_reads_event {code : Code} {data : List Line} (hlines : CodesAre true lines)
    (hcode : code.isEvent = true) (hok : OK_650 ∉ data.map Line.chars) (text : Line) :
    Reads ⟨lines, false, more⟩ (Part.block code text data).wire ⟨[], false, wireData data⟩
      [(true, setData (readData data) (lines ++ [⟨code.chars, text.chars, some []⟩]))] := by
  have hcodes := hlines.append_entry hcode text.chars (some [])
  have hdot := parseLine_dot (wireData data) hcodes (List.append_ne_nil_of_right_ne_nil _ (List.cons_ne_nil _ _))
  exact (block_reads_data hok code text).append (.complete hdot (.nil _))

theorem mid_reads (code : Code) (text : Line) :
    Reads ⟨lines, false, more⟩ (Part.mid code text).wire ⟨lines ++ [⟨code.chars, text.chars, none⟩], false, more⟩ [] := by
  have hparse : (⟨lines, false, more⟩ : LineReader).parseLine (code.chars ++ '-' :: text.chars) =
      .ok (none, ⟨lines ++ [⟨code.chars, text.chars, none⟩], false, more⟩) := by
    rw [parseLine_entry]
    rfl
  exact .quiet hparse (.nil _)

theorem last_reads {code : Code} (hlines : CodesAre event lines) (hcode : code.isEvent = event) (text : Line) :
    Reads ⟨lines, false, more⟩ [code.chars ++ ' ' :: text.chars] ⟨[], false, more⟩
      [(event, lines ++ [⟨code.chars, text.chars, none⟩])] := by
  have hevent := isEvent_of_codes more (hlines.append_entry hcode text.chars none)
    (List.append_ne_nil_of_right_ne_nil _ (List.cons_ne_nil _ _)) false
  have hparse : (⟨lines, false, more⟩ : LineReader).parseLine (code.chars ++ ' ' :: text.chars) =
      .ok (some event, ⟨lines ++ [⟨code.chars, text.chars, none⟩], false, more⟩) := by
    rw [parseLine_entry, hevent]
    rfl
  exact .complete hparse (.nil _)

theorem codes_cons {code : Code} {part : Part} {parts : List Part}
    (h : ∀ other ∈ code :: (part :: parts).map Part.code, other.isEvent = event) :
    part.code.isEvent = event ∧ ∀ other ∈ code :: parts.map Part.code, other.isEvent = event := by
  refine ⟨h part.code (List.mem_cons_of_mem _ List.mem_cons_self), fun other hother => ?_⟩
  rcases List.mem_cons.mp hother with rfl | hother
  · exact h other List.mem_cons_self
  · exact h other (List.mem_cons_of_mem _ (List.mem_cons_of_mem _ hother))

/-- No data has a line "650 OK". -/
def Part.NoOk (part : Part) : Prop := OK_650 ∉ part.data.map Line.chars

theorem reply_reads (more : List Text) {parts : List Part} {code : Code} (hlines : CodesAre false lines)
    (hcodes : ∀ other ∈ code :: parts.map Part.code, other.isEvent = false) (hok : ∀ part ∈ parts, part.NoOk)
    (text : Line) :
    ∃ more', Reads ⟨lines, false, more⟩ (parts.flatMap Part.wire ++ [code.chars ++ ' ' :: text.chars])
      ⟨[], false, more'⟩ [(false, readParts lines parts ++ [⟨code.chars, text.chars, none⟩])] := by
  induction parts generalizing lines more with
  | nil => exact ⟨more, last_reads hlines (hcodes code List.mem_cons_self) text⟩
  | cons part parts ih =>
    obtain ⟨hpart, hrest⟩ := codes_cons hcodes
    have hokRest := fun other hother => hok other (List.mem_cons_of_mem _ hother)
    rw [List.flatMap_cons, List.append_assoc]
    cases part with
    | mid partCode partText =>
      have hentry := hlines.append_entry hpart partText.chars none
      obtain ⟨more', hreads⟩ := ih more hentry hrest hokRest
      exact ⟨more', (mid_reads partCode partText).append hreads⟩
    | block partCode partText data =>
      have hentry := (hlines.append_entry hpart partText.chars (some [])).setData (readData data)
      obtain ⟨more', hreads⟩ := ih (wireData data ++ [['.']]) hentry hrest hokRest
      exact ⟨more', (block_reads_reply hlines hpart (hok _ List.mem_cons_self) partText).append hreads⟩

theorem event_reads (more : List Text) {parts : List Part} {code : Code} (hlines : CodesAre true lines)
    (hcodes : ∀ other ∈ code :: parts.map Part.code, other.isEvent = true) (hok : ∀ part ∈ parts, part.NoOk)
    (text : Line) :
    ∃ more', Reads ⟨lines, false, more⟩ (parts.flatMap Part.wire ++ [code.chars ++ ' ' :: text.chars])
      ⟨[], false, more'⟩
      ((readEvent lines ⟨code.chars, text.chars, none⟩ parts).map fun reply => (true, reply)) := by
  induction parts generalizing lines more with
  | nil => exact ⟨more, last_reads hlines (hcodes code List.mem_cons_self) text⟩
  | cons part parts ih =>
    obtain ⟨hpart, hrest⟩ := codes_cons hcodes
    have hokRest := fun other hother => hok other (List.mem_cons_of_mem _ hother)
    rw [List.flatMap_cons, List.append_assoc]
    cases part with
    | mid partCode partText =>
      have hentry := hlines.append_entry hpart partText.chars none
      obtain ⟨more', hreads⟩ := ih more hentry hrest hokRest
      exact ⟨more', (mid_reads partCode partText).append hreads⟩
    | block partCode partText data =>
      obtain ⟨more', hreads⟩ := ih (wireData data) (codesAre_nil true) hrest hokRest
      exact ⟨more', (block_reads_event hlines hpart (hok _ List.mem_cons_self) partText).append hreads⟩

end

/-! ### The connection -/

structure ControlLink where
  conn : TorControlProtocol
  toConn : List Text
  commands : Nat
  replies : List (Message false)
  events : List (Message true)

inductive ControlAction where
  | sendAndRecv
  | reply (message : Message false)
  | event (message : Message true)
  | lineReceived

namespace ControlLink

/-- Tor replies to the commands in their order. Once the connection is closed no line is received. -/
def step (s : ControlLink) : ControlAction → Option ControlLink
  | .sendAndRecv =>
    if s.conn.closedEx.isSome then none
    else some { s with
      conn := { s.conn with callbackQueue := s.conn.callbackQueue ++ [s.commands] }
      commands := s.commands + 1 }
  | .reply message =>
    if s.replies.length < s.commands then
      some { s with toConn := s.toConn ++ message.wire, replies := s.replies ++ [message] }
    else none
  | .event message => some { s with toConn := s.toConn ++ message.wire, events := s.events ++ [message] }
  | .lineReceived =>
    match s.toConn with
    | [] => none
    | line :: rest =>
      some { s with conn := if s.conn.closedEx.isSome then s.conn else s.conn.lineReceived line, toConn := rest }

def initial : ControlLink where
  conn := {
    lines := [], multiline := false, more := [], callbackQueue := [], closedEx := none, fired := [], handled := [] }
  toConn := []
  commands := 0
  replies := []
  events := []

end ControlLink

end BitBlinder.Tor.TorCtl
