import BitBlinder.Tor.TorCtl

/-!
# Commands and the replies to them

What is read of a message is compared with what was written, first for one
message and then for every run of the connection. The data of a message goes to
the first line that is there, and a line "650 OK" ends it, so that a message is
read as it was written only when its parts are `Decodable`.
-/

namespace BitBlinder.Tor.TorCtl

set_option autoImplicit false

/-- A line "650 OK" would end the data, and an empty last line would be lost. -/
def Intact (data : List Line) : Prop :=
  OK_650 ∉ data.map Line.chars ∧ (data.map Line.chars).getLast? ≠ some []

instance (data : List Line) : Decidable (Intact data) := inferInstanceAs (Decidable (_ ∧ _))

/-! ### Replies -/

/-- Only the first entry has data, or the data of all entries is empty and the first one has some. -/
def RepliesDecodable : List Part → Prop
  | [] => True
  | .mid .. :: parts => ∀ part ∈ parts, part.IsMid
  | .block _ _ data :: parts =>
    (∀ part ∈ parts, part.IsMid) ∧ Intact data ∨ data = [] ∧ ∀ part ∈ parts, part.data = []

instance : ∀ parts, Decidable (RepliesDecodable parts)
  | [] => isTrue trivial
  | .mid .. :: parts => inferInstanceAs (Decidable (∀ part ∈ parts, part.IsMid))
  | .block _ _ data :: parts =>
    inferInstanceAs (Decidable ((∀ part ∈ parts, part.IsMid) ∧ Intact data ∨ data = [] ∧ ∀ part ∈ parts, part.data = []))

/-- An entry as it is read before its data. -/
def Part.head : Part → ReplyLine
  | .mid code text => ⟨code.chars, text.chars, none⟩
  | .block code text _ => ⟨code.chars, text.chars, some []⟩

/-- The data that the first line has after all parts. -/
def lastData (data : Option Text) : List Part → Option Text
  | [] => data
  | .mid .. :: parts => lastData data parts
  | .block _ _ lines :: parts => lastData (some (readData lines)) parts

theorem readParts_cons (first : ReplyLine) (lines : List ReplyLine) (parts : List Part) :
    readParts (first :: lines) parts =
      { first with data := lastData first.data parts } :: (lines ++ parts.map Part.head) := by
  induction parts generalizing first lines with
  | nil => simp [readParts, lastData]
  | cons part parts ih =>
    cases part with
    | mid code text =>
      unfold readParts lastData
      rw [List.cons_append, ih]
      simp [Part.head]
    | block code text data =>
      unfold readParts lastData
      have hset : setData (readData data) (first :: lines ++ [⟨code.chars, text.chars, some []⟩]) =
          { first with data := some (readData data) } :: (lines ++ [⟨code.chars, text.chars, some []⟩]) := rfl
      rw [hset, ih]
      simp [Part.head]

theorem Part.IsMid.data_eq {part : Part} (h : part.IsMid) : part.data = [] := by
  cases part with
  | mid code text => rfl
  | block code text data => exact h.elim

theorem dataText_eq_nil_iff (data : List Line) : dataText data = [] ↔ data = [] := by
  cases data with
  | nil => exact iff_of_true rfl rfl
  | cons line data => simp [dataText]

theorem readData_nil : readData [] = [] := rfl

theorem lastData_of_mids {parts : List Part} (h : ∀ part ∈ parts, part.IsMid) (data : Option Text) :
    lastData data parts = data := by
  induction parts with
  | nil => rfl
  | cons part parts ih =>
    cases part with
    | mid code text => exact ih fun other hother => h other (List.mem_cons_of_mem _ hother)
    | block code text lines => exact (h _ List.mem_cons_self).elim

theorem lastData_of_empty {parts : List Part} (hdata : ∀ part ∈ parts, part.data = [])
    (hmids : ¬∀ part ∈ parts, part.IsMid) (data : Option Text) : lastData data parts = some [] := by
  induction parts generalizing data with
  | nil => exact absurd (fun part hpart => absurd hpart List.not_mem_nil) hmids
  | cons part parts ih =>
    have hrest := fun other hother => hdata other (List.mem_cons_of_mem part hother)
    cases part with
    | mid code text =>
      refine ih hrest (fun hall => hmids fun part hpart => ?_) data
      rcases List.mem_cons.mp hpart with rfl | hpart
      · trivial
      · exact hall part hpart
    | block code text lines =>
      obtain rfl : lines = [] := hdata _ List.mem_cons_self
      unfold lastData
      rw [readData_nil]
      by_cases hall : ∀ part ∈ parts, part.IsMid
      · exact lastData_of_mids hall _
      · exact ih hrest hall _

theorem map_head_eq_iff (parts : List Part) :
    parts.map Part.head = parts.map Part.entry ↔ ∀ part ∈ parts, part.data = [] := by
  rw [List.map_inj_left]
  refine forall₂_congr fun part _ => ?_
  cases part with
  | mid code text => exact iff_of_true rfl rfl
  | block code text data =>
    simp only [Part.head, Part.entry, Part.data, ReplyLine.mk.injEq, Option.some.injEq, true_and]
    rw [eq_comm]
    exact dataText_eq_nil_iff data

/-- A reply without a line "650 OK" is read as it was written exactly when its data is where the
reader puts it. -/
theorem readParts_eq_iff {parts : List Part} (hok : ∀ part ∈ parts, part.NoOk) :
    readParts [] parts = parts.map Part.entry ↔ RepliesDecodable parts := by
  cases parts with
  | nil => exact iff_of_true rfl trivial
  | cons part parts =>
    cases part with
    | mid code text =>
      have hread : readParts [] (.mid code text :: parts) = readParts [⟨code.chars, text.chars, none⟩] parts := rfl
      rw [hread, readParts_cons, List.nil_append, List.map_cons, List.cons.injEq, map_head_eq_iff]
      rw [RepliesDecodable]
      constructor
      · rintro ⟨hfirst, hdata⟩
        by_contra hmids
        have hlast := lastData_of_empty hdata hmids none
        simp [hlast, Part.entry] at hfirst
      · intro hmids
        rw [lastData_of_mids hmids]
        exact ⟨rfl, fun other hother => (hmids other hother).data_eq⟩
    | block code text data =>
      have hread : readParts [] (.block code text data :: parts) =
          readParts [⟨code.chars, text.chars, some (readData data)⟩] parts := rfl
      rw [hread, readParts_cons, List.nil_append, List.map_cons, List.cons.injEq, map_head_eq_iff]
      have hdata : Intact data ↔ readData data = dataText data :=
        (and_iff_right (hok _ List.mem_cons_self)).trans (read_eq_dataText_iff data).symm
      rw [RepliesDecodable, hdata]
      by_cases hmids : ∀ part ∈ parts, part.IsMid
      · have hempty := fun other hother => (hmids other hother).data_eq
        rw [lastData_of_mids hmids]
        simp only [Part.entry, ReplyLine.mk.injEq, Option.some.injEq, true_and]
        constructor
        · rintro ⟨hfirst, -⟩
          exact Or.inl ⟨hmids, hfirst⟩
        · rintro (⟨-, hfirst⟩ | ⟨rfl, -⟩)
          · exact ⟨hfirst, hempty⟩
          · exact ⟨rfl, hempty⟩
      · constructor
        · rintro ⟨hfirst, hempty⟩
          rw [lastData_of_empty hempty hmids] at hfirst
          simp only [Part.entry, ReplyLine.mk.injEq, Option.some.injEq, true_and] at hfirst
          exact Or.inr ⟨(dataText_eq_nil_iff data).mp hfirst.symm, hempty⟩
        · rintro (⟨hall, -⟩ | ⟨rfl, hempty⟩)
          · exact absurd hall hmids
          · rw [lastData_of_empty hempty hmids]
            exact ⟨rfl, hempty⟩

/-! ### Events -/

/-- Without the lines that only close an event. -/
def noticed (lines : List ReplyLine) : List ReplyLine :=
  lines.filter fun line => !(line.isOk && line.data.isNone)

/-- `handle_event` ignores what begins with the OK. -/
def passedOn : List ReplyLine → List ReplyLine
  | [] => []
  | first :: reply => if first.isOk then [] else first :: reply

/-- After the lines that wait to be passed on: data belongs to the first of them, and where this is
an OK, so are the others. -/
def EventDecodable (lines : List ReplyLine) (last : ReplyLine) : List Part → Prop
  | [] => (∀ first ∈ (lines ++ [last]).head?, first.isOk) → ∀ line ∈ lines ++ [last], line.isOk
  | .mid code text :: parts => EventDecodable (lines ++ [⟨code.chars, text.chars, none⟩]) last parts
  | .block code text data :: parts =>
    (lines = [] ∧ (⟨code.chars, text.chars, none⟩ : ReplyLine).isOk = false ∧ Intact data) ∧ EventDecodable [] last parts

instance decidableEventDecodable (last : ReplyLine) : ∀ lines parts, Decidable (EventDecodable lines last parts)
  | lines, [] => inferInstanceAs (Decidable ((∀ first ∈ (lines ++ [last]).head?, first.isOk) → _))
  | lines, .mid code text :: parts => decidableEventDecodable last (lines ++ [⟨code.chars, text.chars, none⟩]) parts
  | lines, .block code text data :: parts =>
    have := decidableEventDecodable last [] parts
    inferInstanceAs (Decidable ((lines = [] ∧ (⟨code.chars, text.chars, none⟩ : ReplyLine).isOk = false ∧
      Intact data) ∧ EventDecodable [] last parts))

theorem noticed_append (lines rest : List ReplyLine) : noticed (lines ++ rest) = noticed lines ++ noticed rest :=
  List.filter_append ..

theorem noticed_flatMap {α : Type} (f : α → List ReplyLine) (l : List α) :
    noticed (l.flatMap f) = l.flatMap fun a => noticed (f a) :=
  List.filter_flatMap ..

theorem noticed_cons_of_data {line : ReplyLine} (h : line.data.isSome) (lines : List ReplyLine) :
    noticed (line :: lines) = line :: noticed lines := by
  unfold noticed
  apply List.filter_cons_of_pos
  cases hdata : line.data with
  | none =>
    rw [hdata] at h
    cases h
  | some data => simp

theorem noticed_cons_of_text {line : ReplyLine} (h : line.isOk = false) (lines : List ReplyLine) :
    noticed (line :: lines) = line :: noticed lines := by
  unfold noticed
  apply List.filter_cons_of_pos
  rw [h]
  rfl

theorem noticed_eq_nil_iff {lines : List ReplyLine} (h : ∀ line ∈ lines, line.data = none) :
    noticed lines = [] ↔ ∀ line ∈ lines, line.isOk := by
  unfold noticed
  rw [List.filter_eq_nil_iff]
  refine forall₂_congr fun line hline => ?_
  simp [h line hline]

section
variable {α β : Type}

theorem append_eq_iff_of_length_le {l₁ l₂ r₁ r₂ : List α} (h₁ : l₁.length ≤ r₁.length) (h₂ : l₂.length ≤ r₂.length) :
    l₁ ++ l₂ = r₁ ++ r₂ ↔ l₁ = r₁ ∧ l₂ = r₂ := by
  constructor
  · intro heq
    have hlength := congrArg List.length heq
    rw [List.length_append, List.length_append] at hlength
    exact List.append_inj heq (by omega)
  · rintro ⟨rfl, rfl⟩
    rfl

theorem flatMap_length_le {f g : α → List β} {l : List α} (h : ∀ a ∈ l, (f a).length ≤ (g a).length) :
    (l.flatMap f).length ≤ (l.flatMap g).length := by
  induction l with
  | nil => exact Nat.le_refl _
  | cons a l ih =>
    rw [List.flatMap_cons, List.flatMap_cons, List.length_append, List.length_append]
    exact Nat.add_le_add (h a List.mem_cons_self) (ih fun b hb => h b (List.mem_cons_of_mem _ hb))

theorem flatMap_eq_iff_of_length_le {f g : α → List β} {l : List α} (h : ∀ a ∈ l, (f a).length ≤ (g a).length) :
    l.flatMap f = l.flatMap g ↔ ∀ a ∈ l, f a = g a := by
  induction l with
  | nil => exact iff_of_true rfl fun a ha => absurd ha List.not_mem_nil
  | cons a l ih =>
    have hrest := fun b hb => h b (List.mem_cons_of_mem a hb)
    rw [List.flatMap_cons, List.flatMap_cons,
      append_eq_iff_of_length_le (h a List.mem_cons_self) (flatMap_length_le hrest), ih hrest, List.forall_mem_cons]

end

/-- What is passed on at the end of data. -/
theorem passedOn_block {lines : List ReplyLine} (hlines : ∀ line ∈ lines, line.data = none) (code text : Text)
    (read data : Text) :
    (noticed (passedOn (setData read (lines ++ [⟨code, text, some []⟩])))).length ≤
        (noticed (lines ++ [⟨code, text, some data⟩])).length ∧
      (noticed (passedOn (setData read (lines ++ [⟨code, text, some []⟩]))) =
          noticed (lines ++ [⟨code, text, some data⟩]) ↔
        lines = [] ∧ (⟨code, text, none⟩ : ReplyLine).isOk = false ∧ read = data) := by
  have hlast : noticed [⟨code, text, some data⟩] = [⟨code, text, some data⟩] := noticed_cons_of_data rfl []
  cases lines with
  | nil =>
    have hset : setData read ([] ++ [⟨code, text, some []⟩]) = [⟨code, text, some read⟩] := rfl
    rw [hset, List.nil_append, hlast, passedOn]
    split
    · rename_i hok
      refine ⟨Nat.zero_le _, iff_of_false (List.cons_ne_nil _ _).symm fun h => ?_⟩
      exact Bool.false_ne_true (h.2.1.symm.trans hok)
    · rename_i hok
      rw [noticed_cons_of_data rfl []]
      refine ⟨Nat.le_refl _, ?_⟩
      have htext : (⟨code, text, none⟩ : ReplyLine).isOk = false := Bool.eq_false_iff.mpr hok
      simp [htext, noticed]
  | cons first lines =>
    have hset : setData read (first :: lines ++ [⟨code, text, some []⟩]) =
        { first with data := some read } :: (lines ++ [⟨code, text, some []⟩]) := rfl
    rw [hset, passedOn]
    split
    · rename_i hok
      refine ⟨Nat.zero_le _, iff_of_false (fun hnil => ?_) fun h => List.cons_ne_nil _ _ h.1⟩
      rw [noticed_append, hlast] at hnil
      simp [noticed] at hnil
    · rename_i hok
      have hfirst : first.isOk = false := Bool.eq_false_iff.mpr hok
      rw [noticed_cons_of_data rfl, List.cons_append, noticed_cons_of_text hfirst, noticed_append, noticed_append, hlast,
        noticed_cons_of_data rfl []]
      refine ⟨by simp [noticed], iff_of_false (fun hcons => ?_) fun h => List.cons_ne_nil _ _ h.1⟩
      have hdata := congrArg ReplyLine.data (List.cons.inj hcons).1
      rw [hlines first List.mem_cons_self] at hdata
      cases hdata

theorem passedOn_last {lines : List ReplyLine} (hlines : ∀ line ∈ lines, line.data = none) :
    (noticed (passedOn lines)).length ≤ (noticed lines).length ∧
      (noticed (passedOn lines) = noticed lines ↔
        ((∀ first ∈ lines.head?, first.isOk) → ∀ line ∈ lines, line.isOk)) := by
  cases lines with
  | nil => simp [passedOn]
  | cons first lines =>
    rw [passedOn]
    split
    · rename_i hok
      refine ⟨Nat.zero_le _, ?_⟩
      have hhead : ∀ other ∈ (first :: lines).head?, other.isOk := by
        intro other hother
        obtain rfl := Option.some.inj hother
        exact hok
      rw [forall_prop_of_true hhead, ← noticed_eq_nil_iff hlines]
      exact eq_comm
    · rename_i hok
      exact ⟨Nat.le_refl _, iff_of_true rfl fun hhead => absurd (hhead first rfl) hok⟩

theorem readEvent_eq_iff {last : ReplyLine} (hlast : last.data = none) {lines : List ReplyLine} {parts : List Part}
    (hlines : ∀ line ∈ lines, line.data = none) (hok : ∀ part ∈ parts, part.NoOk) :
    (noticed ((readEvent lines last parts).flatMap passedOn)).length ≤
        (noticed (lines ++ (parts.map Part.entry ++ [last]))).length ∧
      (noticed ((readEvent lines last parts).flatMap passedOn) = noticed (lines ++ (parts.map Part.entry ++ [last])) ↔
        EventDecodable lines last parts) := by
  induction parts generalizing lines with
  | nil =>
    have hall : ∀ line ∈ lines ++ [last], line.data = none := by
      intro line hline
      rcases List.mem_append.mp hline with hline | hline
      · exact hlines line hline
      · obtain rfl := List.mem_singleton.mp hline
        exact hlast
    have hread : (readEvent lines last []).flatMap passedOn = passedOn (lines ++ [last]) := List.append_nil _
    rw [hread]
    exact passedOn_last hall
  | cons part parts ih =>
    have hokRest := fun other hother => hok other (List.mem_cons_of_mem part hother)
    cases part with
    | mid code text =>
      have hentry : ∀ line ∈ lines ++ [⟨code.chars, text.chars, none⟩], line.data = none := by
        intro line hline
        rcases List.mem_append.mp hline with hline | hline
        · exact hlines line hline
        · obtain rfl := List.mem_singleton.mp hline
          rfl
      have hrest := ih hentry hokRest
      rw [List.append_assoc] at hrest
      exact hrest
    | block code text data =>
      have hrest := ih (fun line hline => absurd hline List.not_mem_nil) hokRest
      have hblock := passedOn_block hlines code.chars text.chars (readData data) (dataText data)
      have hread : (readEvent lines last (.block code text data :: parts)).flatMap passedOn =
          passedOn (setData (readData data) (lines ++ [⟨code.chars, text.chars, some []⟩])) ++
            (readEvent [] last parts).flatMap passedOn := rfl
      have hentries : lines ++ ((Part.block code text data :: parts).map Part.entry ++ [last]) =
          (lines ++ [⟨code.chars, text.chars, some (dataText data)⟩]) ++ ([] ++ (parts.map Part.entry ++ [last])) := by
        simp [Part.entry]
      have hintact : Intact data ↔ readData data = dataText data :=
        (and_iff_right (hok _ List.mem_cons_self)).trans (read_eq_dataText_iff data).symm
      rw [hread, hentries, noticed_append, noticed_append, List.length_append, List.length_append]
      refine ⟨Nat.add_le_add hblock.1 hrest.1, ?_⟩
      rw [append_eq_iff_of_length_le hblock.1 hrest.1, hblock.2, hrest.2, ← hintact, EventDecodable]

/-! ### Messages -/

namespace Message

def NoOk {event : Bool} (message : Message event) : Prop := ∀ part ∈ message.parts, part.NoOk

def readReply (message : Message false) : List ReplyLine := readParts [] message.parts ++ [message.last]

/-- What the handler gets of an event. -/
def readLines (message : Message true) : List ReplyLine :=
  (readEvent [] message.last message.parts).flatMap passedOn

def ReplyDecodable (message : Message false) : Prop := RepliesDecodable message.parts

def EventDecodable (message : Message true) : Prop := TorCtl.EventDecodable [] message.last message.parts

instance (message : Message false) : Decidable message.ReplyDecodable :=
  inferInstanceAs (Decidable (RepliesDecodable message.parts))

instance (message : Message true) : Decidable message.EventDecodable :=
  inferInstanceAs (Decidable (TorCtl.EventDecodable [] message.last message.parts))

theorem readReply_eq_iff {message : Message false} (h : message.NoOk) :
    message.readReply = message.entries ↔ message.ReplyDecodable := by
  unfold readReply entries
  rw [List.append_left_inj]
  exact readParts_eq_iff h

theorem readLines_eq_iff {message : Message true} (h : message.NoOk) :
    (noticed message.readLines).length ≤ (noticed message.entries).length ∧
      (noticed message.readLines = noticed message.entries ↔ message.EventDecodable) :=
  readEvent_eq_iff rfl (fun _ hline => absurd hline List.not_mem_nil) h

theorem ReplyDecodable.noOk {message : Message false} (h : message.ReplyDecodable) : message.NoOk := by
  intro part hpart
  unfold ReplyDecodable at h
  have hempty : ∀ {part : Part}, part.data = [] → part.NoOk := by
    intro part hdata
    unfold Part.NoOk
    rw [hdata]
    exact List.not_mem_nil
  generalize message.parts = parts at h hpart
  cases parts with
  | nil => cases hpart
  | cons first parts =>
    cases first with
    | mid code text =>
      rcases List.mem_cons.mp hpart with rfl | hpart
      · exact hempty rfl
      · exact hempty (h part hpart).data_eq
    | block code text data =>
      rcases h with ⟨hmids, hintact⟩ | ⟨rfl, hdata⟩
      · rcases List.mem_cons.mp hpart with rfl | hpart
        · exact hintact.1
        · exact hempty (hmids part hpart).data_eq
      · rcases List.mem_cons.mp hpart with rfl | hpart
        · exact hempty rfl
        · exact hempty (hdata part hpart)

theorem EventDecodable.noOk {message : Message true} (h : message.EventDecodable) : message.NoOk := by
  unfold EventDecodable at h
  unfold NoOk
  generalize message.parts = parts at h
  generalize message.last = last at h
  generalize ([] : List ReplyLine) = lines at h
  induction parts generalizing lines with
  | nil => exact fun part hpart => absurd hpart List.not_mem_nil
  | cons first parts ih =>
    cases first with
    | mid code text =>
      intro part hpart
      rcases List.mem_cons.mp hpart with rfl | hpart
      · exact List.not_mem_nil
      · exact ih _ h part hpart
    | block code text data =>
      obtain ⟨⟨-, -, hintact⟩, hrest⟩ := h
      intro part hpart
      rcases List.mem_cons.mp hpart with rfl | hpart
      · exact hintact.1
      · exact ih _ hrest part hpart

end Message

/-! ### Runs -/

theorem TorControlProtocol.handleEvent_eq (conn : TorControlProtocol) (reply : List ReplyLine) :
    conn.handleEvent reply = { conn with handled := conn.handled ++ passedOn reply } := by
  cases reply with
  | nil =>
    unfold handleEvent passedOn
    rw [List.append_nil]
  | cons first reply =>
    rw [handleEvent, passedOn]
    split
    · rw [List.append_nil]
    · rfl

def completeReplies (complete : List (Bool × List ReplyLine)) : List (List ReplyLine) :=
  complete.filterMap fun message => if message.1 then none else some message.2

def completeEvents (complete : List (Bool × List ReplyLine)) : List ReplyLine :=
  complete.flatMap fun message => if message.1 then passedOn message.2 else []

theorem completeReplies_events (events : List (List ReplyLine)) :
    completeReplies (events.map fun reply => (true, reply)) = [] := by
  unfold completeReplies
  rw [List.filterMap_eq_nil_iff]
  intro message hmessage
  obtain ⟨reply, -, rfl⟩ := List.mem_map.mp hmessage
  rfl

theorem completeEvents_events (events : List (List ReplyLine)) :
    completeEvents (events.map fun reply => (true, reply)) = events.flatMap passedOn := by
  unfold completeEvents
  rw [List.flatMap_map]
  rfl

namespace ControlLink

/-- The commands that were sent wait for their replies in their order. -/
structure Numbered (s : ControlLink) : Prop where
  callbacks : s.conn.fired.map Prod.fst ++ s.conn.callbackQueue = List.range s.commands
  replies_le : s.replies.length ≤ s.commands

/-- What comes next is read as the rest of what was written. -/
structure Aligned (s : ControlLink) : Prop where
  opened : s.conn.closedEx = none
  reads : ∃ more complete, Reads s.conn.toLineReader s.toConn ⟨[], false, more⟩ complete ∧
    s.conn.fired.map Prod.snd ++ completeReplies complete = s.replies.map Message.readReply ∧
    s.conn.handled ++ completeEvents complete = s.events.flatMap Message.readLines

def NoOk (s : ControlLink) : Prop := (∀ message ∈ s.replies, message.NoOk) ∧ ∀ message ∈ s.events, message.NoOk

section
variable {s t : ControlLink}

theorem initial_numbered : initial.Numbered := ⟨rfl, Nat.le_refl _⟩

theorem initial_aligned : initial.Aligned := ⟨rfl, [], [], .nil _, rfl, rfl⟩

theorem lineReceived_callbacks (conn : TorControlProtocol) (line : Text) :
    (conn.lineReceived line).fired.map Prod.fst ++ (conn.lineReceived line).callbackQueue =
      conn.fired.map Prod.fst ++ conn.callbackQueue := by
  unfold TorControlProtocol.lineReceived
  split
  · rfl
  · rfl
  · dsimp only
    split
    · rw [TorControlProtocol.handleEvent_eq]
    · unfold TorControlProtocol.callback
      split
      · rfl
      · rename_i cb queue hqueue
        dsimp only at hqueue ⊢
        rw [hqueue, List.map_append, List.append_assoc]
        rfl

theorem step_lineReceived (hstep : s.step .lineReceived = some t) :
    ∃ line rest, s.toConn = line :: rest ∧
      t = { s with conn := if s.conn.closedEx.isSome then s.conn else s.conn.lineReceived line, toConn := rest } := by
  unfold step at hstep
  dsimp only at hstep
  split at hstep
  · cases hstep
  · rename_i line rest hchannel
    exact ⟨line, rest, hchannel, (Option.some.inj hstep).symm⟩

theorem step_numbered {action : ControlAction} (h : s.Numbered) (hstep : s.step action = some t) : t.Numbered := by
  cases action with
  | sendAndRecv =>
    obtain ⟨-, hsend⟩ := Option.ite_none_left_eq_some.mp hstep
    obtain rfl := Option.some.inj hsend
    refine ⟨?_, Nat.le_succ_of_le h.replies_le⟩
    dsimp only
    rw [← List.append_assoc, h.callbacks, List.range_succ]
  | reply message =>
    obtain ⟨hlt, hreply⟩ := Option.ite_none_right_eq_some.mp hstep
    obtain rfl := Option.some.inj hreply
    refine ⟨h.callbacks, ?_⟩
    dsimp only
    rw [List.length_append, List.length_singleton]
    omega
  | event message =>
    obtain rfl := Option.some.inj hstep
    exact ⟨h.callbacks, h.replies_le⟩
  | lineReceived =>
    obtain ⟨line, rest, hchannel, rfl⟩ := step_lineReceived hstep
    refine ⟨?_, h.replies_le⟩
    dsimp only
    split
    · exact h.callbacks
    · exact (lineReceived_callbacks s.conn line).trans h.callbacks

theorem reply_aligned {message : Message false} (h : s.Aligned) (hok : message.NoOk) :
    ({ s with toConn := s.toConn ++ message.wire, replies := s.replies ++ [message] } : ControlLink).Aligned := by
  obtain ⟨more, complete, hreads, hreplies, hevents⟩ := h.reads
  obtain ⟨more', hmessage⟩ := reply_reads more (codesAre_nil false) message.isEvent_eq hok message.text
  refine ⟨h.opened, more', _, hreads.append hmessage, ?_, ?_⟩
  · unfold completeReplies at hreplies ⊢
    rw [List.filterMap_append, ← List.append_assoc, hreplies, List.map_append]
    rfl
  · unfold completeEvents at hevents ⊢
    rw [List.flatMap_append, ← List.append_assoc, hevents]
    exact List.append_nil _

theorem event_aligned {message : Message true} (h : s.Aligned) (hok : message.NoOk) :
    ({ s with toConn := s.toConn ++ message.wire, events := s.events ++ [message] } : ControlLink).Aligned := by
  obtain ⟨more, complete, hreads, hreplies, hevents⟩ := h.reads
  obtain ⟨more', hmessage⟩ := event_reads more (codesAre_nil true) message.isEvent_eq hok message.text
  have hreply := completeReplies_events (readEvent [] message.last message.parts)
  have hevent := completeEvents_events (readEvent [] message.last message.parts)
  refine ⟨h.opened, more', _, hreads.append hmessage, ?_, ?_⟩
  · unfold completeReplies at hreplies hreply ⊢
    rw [List.filterMap_append, ← List.append_assoc, hreplies]
    exact (congrArg (s.replies.map Message.readReply ++ ·) hreply).trans (List.append_nil _)
  · unfold completeEvents at hevents hevent ⊢
    rw [List.flatMap_append, ← List.append_assoc, hevents, List.flatMap_append, List.flatMap_singleton]
    exact congrArg (s.events.flatMap Message.readLines ++ ·) hevent

theorem line_aligned {line : Text} {rest : List Text} (h : s.Aligned) (hnumbered : s.Numbered)
    (hchannel : s.toConn = line :: rest) :
    ({ s with conn := s.conn.lineReceived line, toConn := rest } : ControlLink).Aligned := by
  obtain ⟨more, complete, hreads, hreplies, hevents⟩ := h.reads
  rw [hchannel] at hreads
  cases hreads with
  | quiet hparse hrest =>
    unfold TorControlProtocol.lineReceived
    rw [hparse]
    exact ⟨h.opened, more, complete, hrest, hreplies, hevents⟩
  | @complete _ next _ _ _ isEvent complete hparse hrest =>
    unfold TorControlProtocol.lineReceived
    rw [hparse]
    dsimp only
    cases isEvent with
    | true =>
      rw [if_pos rfl, TorControlProtocol.handleEvent_eq]
      refine ⟨h.opened, more, complete, hrest, hreplies, ?_⟩
      rw [List.append_assoc]
      exact hevents
    | false =>
      -- A reply is complete, so that a command still waits for it.
      have hlength := congrArg List.length hreplies
      have hqueue := congrArg List.length hnumbered.callbacks
      have hle := hnumbered.replies_le
      simp only [completeReplies, List.filterMap_cons, List.length_append, List.length_map, List.length_range,
        Bool.false_eq_true, if_false, List.length_cons] at hlength hqueue
      obtain ⟨cb, queue, hcallback⟩ := List.exists_cons_of_length_pos (l := s.conn.callbackQueue) (by omega)
      rw [if_neg Bool.false_ne_true]
      unfold TorControlProtocol.callback
      dsimp only
      rw [hcallback]
      refine ⟨h.opened, more, complete, hrest, ?_, hevents⟩
      dsimp only
      rw [List.map_append, List.append_assoc]
      exact hreplies

theorem step_aligned {action : ControlAction} (h : s.Aligned) (hnumbered : s.Numbered)
    (hstep : s.step action = some t) (hok : t.NoOk) : t.Aligned := by
  cases action with
  | sendAndRecv =>
    obtain ⟨-, hsend⟩ := Option.ite_none_left_eq_some.mp hstep
    obtain rfl := Option.some.inj hsend
    exact ⟨h.opened, h.reads⟩
  | reply message =>
    obtain ⟨-, hreply⟩ := Option.ite_none_right_eq_some.mp hstep
    obtain rfl := Option.some.inj hreply
    exact reply_aligned h (hok.1 message (List.mem_append_right _ List.mem_cons_self))
  | event message =>
    obtain rfl := Option.some.inj hstep
    exact event_aligned h (hok.2 message (List.mem_append_right _ List.mem_cons_self))
  | lineReceived =>
    obtain ⟨line, rest, hchannel, rfl⟩ := step_lineReceived hstep
    rw [h.opened]
    exact line_aligned h hnumbered hchannel

end

end ControlLink

/-! ### What can be read at all -/

/-- A line that is written has no newline in it, and no dot before a "650 OK". -/
def Written (line : Text) : Prop := '\n' ∉ line ∧ line ≠ '.' :: OK_650

/-- The data of a line was read of lines without a "650 OK". -/
def Readable (line : ReplyLine) : Prop :=
  ∀ data, line.data = some data → ∃ more : List Text, (∀ line ∈ more, Written line ∧ line ≠ OK_650) ∧
    data = unescapeDots (List.intercalate ['\r', '\n'] more)

structure LineReader.Sound (reader : LineReader) : Prop where
  lines : ∀ line ∈ reader.lines, Readable line
  more : reader.multiline = true → ∀ line ∈ reader.more, Written line ∧ line ≠ OK_650

theorem written_entry (code : Code) (text : Line) {tp : Char} (htype : tp ∈ ['-', '+', ' ']) :
    Written (code.chars ++ tp :: text.chars) := by
  have htype' : tp ≠ '\n' ∧ tp ≠ '0' := by
    constructor
    · rintro rfl
      revert htype
      decide
    · rintro rfl
      revert htype
      decide
  constructor
  · intro hmem
    rcases List.mem_append.mp hmem with hcode | hmem
    · exact code.no_newline hcode
    · rcases List.mem_cons.mp hmem with htp | htext
      · exact htype'.1 htp.symm
      · exact text.no_newline htext
  · intro heq
    obtain ⟨a, b, c, hcode⟩ := List.length_eq_three.mp code.length_eq
    rw [hcode] at heq
    have htp : tp = '0' := by
      injection heq with _ heq
      injection heq with _ heq
      injection heq with _ heq
      injection heq
    exact htype'.2 htp

theorem written_data (line : Line) : Written (escapeLine line.chars) := by
  refine ⟨escapeLine_newline line.no_newline, ?_⟩
  generalize line.chars = chars
  fun_cases escapeLine chars with
  | case1 s =>
    intro heq
    injection heq with _ heq
    injection heq with hdot
    revert hdot
    decide
  | case2 _ hdot => exact hdot OK_650

theorem Message.wire_written {event : Bool} (message : Message event) : ∀ line ∈ message.wire, Written line := by
  intro line hline
  rcases List.mem_append.mp hline with hline | hline
  · obtain ⟨part, -, hline⟩ := List.mem_flatMap.mp hline
    cases part with
    | mid code text =>
      obtain rfl := List.mem_singleton.mp hline
      exact written_entry code text (by decide)
    | block code text data =>
      rcases List.mem_append.mp hline with hline | hline
      · rcases List.mem_cons.mp hline with rfl | hline
        · exact written_entry code text (by decide)
        · obtain ⟨source, -, rfl⟩ := List.mem_map.mp hline
          exact written_data source
      · obtain rfl := List.mem_singleton.mp hline
        exact ⟨by decide, by decide⟩
  · obtain rfl := List.mem_singleton.mp hline
    exact written_entry message.code message.text (by decide)

theorem readable_of_none {code text : Text} : Readable ⟨code, text, none⟩ := by
  intro data hdata
  cases hdata

theorem readable_nil {code text : Text} : Readable ⟨code, text, some []⟩ := by
  intro data hdata
  obtain rfl := Option.some.inj hdata
  exact ⟨[], fun line hline => absurd hline List.not_mem_nil, rfl⟩

theorem readable_append {lines : List ReplyLine} (h : ∀ line ∈ lines, Readable line) {last : ReplyLine}
    (hlast : Readable last) : ∀ line ∈ lines ++ [last], Readable line := by
  intro line hline
  rcases List.mem_append.mp hline with hline | hline
  · exact h line hline
  · obtain rfl := List.mem_singleton.mp hline
    exact hlast

theorem parseLine_sound {reader next : LineReader} (h : reader.Sound) {line : Text} (hline : Written line)
    {isEvent : Option Bool} (hparse : reader.parseLine line = .ok (isEvent, next)) : next.Sound := by
  unfold LineReader.parseLine at hparse
  split at hparse
  · rename_i hmultiline
    split at hparse
    · have hset : ∀ line ∈ reader.lines.modifyHead (fun first =>
          { first with data := some (unescapeDots (List.intercalate ['\r', '\n'] reader.more)) }), Readable line := by
        have hlines := h.lines
        cases hreader : reader.lines with
        | nil => exact fun line hline => absurd hline List.not_mem_nil
        | cons first lines =>
          rw [hreader] at hlines
          intro line hline
          rcases List.mem_cons.mp hline with rfl | hline
          · intro data hdata
            exact ⟨reader.more, h.more hmultiline, (Option.some.inj hdata).symm⟩
          · exact hlines line (List.mem_cons_of_mem _ hline)
      dsimp only at hparse
      split at hparse
      · obtain ⟨-, rfl⟩ := Prod.mk.inj (Except.ok.inj hparse)
        exact ⟨hset, fun hfalse => absurd hfalse Bool.false_ne_true⟩
      · obtain ⟨-, rfl⟩ := Prod.mk.inj (Except.ok.inj hparse)
        exact ⟨hset, fun hfalse => absurd hfalse Bool.false_ne_true⟩
    · rename_i hend
      obtain ⟨-, rfl⟩ := Prod.mk.inj (Except.ok.inj hparse)
      refine ⟨h.lines, fun _ other hother => ?_⟩
      rcases List.mem_append.mp hother with hother | hother
      · exact h.more hmultiline other hother
      · obtain rfl := List.mem_singleton.mp hother
        exact ⟨hline, fun hok => hend (Or.inr hok)⟩
  · rename_i hmultiline
    split at hparse
    · dsimp only at hparse
      split at hparse
      · obtain ⟨-, rfl⟩ := Prod.mk.inj (Except.ok.inj hparse)
        exact ⟨readable_append h.lines readable_of_none, fun htrue => absurd htrue hmultiline⟩
      · split at hparse
        · obtain ⟨-, rfl⟩ := Prod.mk.inj (Except.ok.inj hparse)
          exact ⟨readable_append h.lines readable_of_none, fun htrue => absurd htrue hmultiline⟩
        · split at hparse
          · cases hparse
          · obtain ⟨-, rfl⟩ := Prod.mk.inj (Except.ok.inj hparse)
            exact ⟨readable_append h.lines readable_nil, fun _ other hother => absurd hother List.not_mem_nil⟩
    · cases hparse

namespace ControlLink

structure Sound (s : ControlLink) : Prop where
  reader : s.conn.toLineReader.Sound
  channel : ∀ line ∈ s.toConn, Written line
  fired : ∀ call ∈ s.conn.fired, ∀ line ∈ call.2, Readable line
  handled : ∀ line ∈ s.conn.handled, Readable line

section
variable {s t : ControlLink}

theorem initial_sound : initial.Sound where
  reader := ⟨fun _ h => absurd h List.not_mem_nil, fun h => absurd h Bool.false_ne_true⟩
  channel := fun _ h => absurd h List.not_mem_nil
  fired := fun _ h => absurd h List.not_mem_nil
  handled := fun _ h => absurd h List.not_mem_nil

theorem line_sound {line : Text} {rest : List Text} (h : s.Sound) (hchannel : s.toConn = line :: rest) :
    ({ s with conn := s.conn.lineReceived line, toConn := rest } : ControlLink).Sound := by
  have hwritten := h.channel
  rw [hchannel] at hwritten
  have hline := hwritten line List.mem_cons_self
  have hrest := fun other hother => hwritten other (List.mem_cons_of_mem _ hother)
  unfold TorControlProtocol.lineReceived
  split
  · exact ⟨h.reader, hrest, h.fired, h.handled⟩
  · rename_i next hparse
    exact ⟨parseLine_sound h.reader hline hparse, hrest, h.fired, h.handled⟩
  · rename_i isEvent next hparse
    have hnext := parseLine_sound h.reader hline hparse
    have hreader : ({ next with lines := [] } : LineReader).Sound := ⟨fun _ h => absurd h List.not_mem_nil, hnext.more⟩
    dsimp only
    split
    · rw [TorControlProtocol.handleEvent_eq]
      refine ⟨hreader, hrest, h.fired, fun other hother => ?_⟩
      rcases List.mem_append.mp hother with hother | hother
      · exact h.handled other hother
      · revert hother
        unfold passedOn
        split
        · exact fun hother => absurd hother List.not_mem_nil
        · rename_i first reply hlines
          intro hother
          split at hother
          · exact absurd hother List.not_mem_nil
          · exact hnext.lines other (hlines ▸ hother)
    · unfold TorControlProtocol.callback
      split
      · exact ⟨hreader, hrest, h.fired, h.handled⟩
      · refine ⟨hreader, hrest, fun call hcall => ?_, h.handled⟩
        rcases List.mem_append.mp hcall with hcall | hcall
        · exact h.fired call hcall
        · obtain rfl := List.mem_singleton.mp hcall
          exact hnext.lines

theorem step_sound {action : ControlAction} (h : s.Sound) (hstep : s.step action = some t) : t.Sound := by
  have hwire : ∀ {event : Bool} (message : Message event), ∀ line ∈ s.toConn ++ message.wire, Written line := by
    intro event message line hline
    rcases List.mem_append.mp hline with hline | hline
    · exact h.channel line hline
    · exact message.wire_written line hline
  cases action with
  | sendAndRecv =>
    obtain ⟨-, hsend⟩ := Option.ite_none_left_eq_some.mp hstep
    obtain rfl := Option.some.inj hsend
    exact ⟨h.reader, h.channel, h.fired, h.handled⟩
  | reply message =>
    obtain ⟨-, hreply⟩ := Option.ite_none_right_eq_some.mp hstep
    obtain rfl := Option.some.inj hreply
    exact ⟨h.reader, hwire message, h.fired, h.handled⟩
  | event message =>
    obtain rfl := Option.some.inj hstep
    exact ⟨h.reader, hwire message, h.fired, h.handled⟩
  | lineReceived =>
    obtain ⟨line, rest, hchannel, rfl⟩ := step_lineReceived hstep
    have hrest : ∀ other ∈ rest, Written other := fun other hother =>
      h.channel other (hchannel ▸ List.mem_cons_of_mem _ hother)
    cases hclosed : s.conn.closedEx.isSome with
    | true => exact ⟨h.reader, hrest, h.fired, h.handled⟩
    | false => exact line_sound h hchannel

end

/-- All that was written has been taken as it was written. -/
structure Delivered (s : ControlLink) : Prop where
  order : s.conn.fired.map Prod.fst = List.range s.replies.length
  replies : s.conn.fired.map Prod.snd = s.replies.map Message.entries
  events : noticed s.conn.handled = noticed (s.events.flatMap Message.entries)

/-- What has been taken so far is as it was written. -/
structure Delivering (s : ControlLink) : Prop where
  opened : s.conn.closedEx = none
  order : s.conn.fired.map Prod.fst = List.range s.conn.fired.length
  replies : s.conn.fired.map Prod.snd <+: s.replies.map Message.entries
  events : noticed s.conn.handled <+: noticed (s.events.flatMap Message.entries)

def Decodable (s : ControlLink) : Prop :=
  (∀ message ∈ s.replies, message.ReplyDecodable) ∧ ∀ message ∈ s.events, message.EventDecodable

instance (s : ControlLink) : Decidable s.Decodable := inferInstanceAs (Decidable (_ ∧ _))

section
variable {s t : ControlLink}

theorem Decodable.noOk (h : s.Decodable) : s.NoOk :=
  ⟨fun message hmessage => (h.1 message hmessage).noOk, fun message hmessage => (h.2 message hmessage).noOk⟩

theorem Numbered.order (h : s.Numbered) : s.conn.fired.map Prod.fst = List.range s.conn.fired.length := by
  have htake := congrArg (List.take s.conn.fired.length) h.callbacks
  have hlength := congrArg List.length h.callbacks
  simp only [List.length_append, List.length_map, List.length_range] at hlength
  rw [List.take_append_of_le_length (by simp), List.take_of_length_le (by simp), List.take_range] at htake
  rw [htake, Nat.min_eq_left (by omega)]

theorem noOk_of_readable {part : Part} (h : Readable part.entry) : part.NoOk := by
  cases part with
  | mid code text => exact List.not_mem_nil
  | block code text data =>
    obtain ⟨more, hmore, hdata⟩ := h (dataText data) rfl
    intro hok
    obtain ⟨line, hline, hchars⟩ := List.mem_map.mp hok
    have hne : line.chars ≠ [] := by
      rw [hchars]
      exact List.cons_ne_nil _ _
    have hwire := mem_of_dataText_eq (fun other hother => (hmore other hother).1.1) hdata hline hne
    rw [hchars] at hwire
    rcases hwire with hwire | hwire
    · exact (hmore _ hwire).2 rfl
    · exact (hmore _ hwire).1.2 rfl

theorem entry_mem {event : Bool} {message : Message event} {part : Part} (hpart : part ∈ message.parts) :
    part.entry ∈ message.entries :=
  List.mem_append_left _ (List.mem_map_of_mem hpart)

/-- Where all is taken as it was written, no data had a line "650 OK". -/
theorem Delivered.noOk (h : s.Delivered) (hsound : s.Sound) : s.NoOk := by
  constructor
  · intro message hmessage part hpart
    have hentries : message.entries ∈ s.conn.fired.map Prod.snd := by
      rw [h.replies]
      exact List.mem_map_of_mem hmessage
    obtain ⟨call, hcall, heq⟩ := List.mem_map.mp hentries
    exact noOk_of_readable (hsound.fired call hcall _ (heq ▸ entry_mem hpart))
  · intro message hmessage part hpart
    cases part with
    | mid code text => exact List.not_mem_nil
    | block code text data =>
      have hentry : (Part.block code text data).entry ∈ noticed (s.events.flatMap Message.entries) := by
        refine List.mem_filter.mpr ⟨List.mem_flatMap.mpr ⟨message, hmessage, entry_mem hpart⟩, ?_⟩
        simp [Part.entry]
      rw [← h.events] at hentry
      exact noOk_of_readable (hsound.handled _ (List.mem_of_mem_filter hentry))

/-- Replies without a line "650 OK" are read as they were written exactly when they are decodable. -/
theorem map_readReply_eq_iff {replies : List (Message false)} (h : ∀ message ∈ replies, message.NoOk) :
    replies.map Message.readReply = replies.map Message.entries ↔ ∀ message ∈ replies, message.ReplyDecodable := by
  rw [List.map_inj_left]
  exact forall₂_congr fun message hmessage => Message.readReply_eq_iff (h message hmessage)

theorem flatMap_readLines_eq_iff {events : List (Message true)} (h : ∀ message ∈ events, message.NoOk) :
    noticed (events.flatMap Message.readLines) = noticed (events.flatMap Message.entries) ↔
      ∀ message ∈ events, message.EventDecodable := by
  rw [noticed_flatMap, noticed_flatMap,
    flatMap_eq_iff_of_length_le fun message hmessage => (Message.readLines_eq_iff (h message hmessage)).1]
  exact forall₂_congr fun message hmessage => (Message.readLines_eq_iff (h message hmessage)).2

theorem Aligned.delivering (h : s.Aligned) (hnumbered : s.Numbered) (hdecodable : s.Decodable) : s.Delivering := by
  obtain ⟨more, complete, -, hreplies, hevents⟩ := h.reads
  have hok := hdecodable.noOk
  refine ⟨h.opened, hnumbered.order, ?_, ?_⟩
  · rw [← (map_readReply_eq_iff hok.1).mpr hdecodable.1, ← hreplies]
    exact List.prefix_append _ _
  · rw [← (flatMap_readLines_eq_iff hok.2).mpr hdecodable.2, ← hevents, noticed_append]
    exact List.prefix_append _ _

/-- With nothing on the way all is taken, and every message counts. -/
theorem Aligned.delivered_iff (h : s.Aligned) (hnumbered : s.Numbered) (hok : s.NoOk) (hdrained : s.toConn = []) :
    s.Delivered ↔ s.Decodable := by
  obtain ⟨more, complete, hreads, hreplies, hevents⟩ := h.reads
  rw [hdrained] at hreads
  obtain rfl := hreads.complete_nil
  have hfired : s.conn.fired.map Prod.snd = s.replies.map Message.readReply := (List.append_nil _).symm.trans hreplies
  have hhandled : s.conn.handled = s.events.flatMap Message.readLines := (List.append_nil _).symm.trans hevents
  have hlength : s.conn.fired.length = s.replies.length := by
    rw [← List.length_map (f := Prod.snd), hfired, List.length_map]
  constructor
  · intro hdelivered
    have hread := hdelivered.replies
    have hnoticed := hdelivered.events
    rw [hfired] at hread
    rw [hhandled] at hnoticed
    exact ⟨(map_readReply_eq_iff hok.1).mp hread, (flatMap_readLines_eq_iff hok.2).mp hnoticed⟩
  · intro hdecodable
    refine ⟨?_, ?_, ?_⟩
    · rw [hnumbered.order, hlength]
    · exact hfired.trans ((map_readReply_eq_iff hok.1).mpr hdecodable.1)
    · rw [hhandled]
      exact (flatMap_readLines_eq_iff hok.2).mpr hdecodable.2

/-- Messages once written stay written. -/
theorem step_noOk {action : ControlAction} (hstep : s.step action = some t) (hok : t.NoOk) : s.NoOk := by
  cases action with
  | sendAndRecv =>
    obtain ⟨-, hsend⟩ := Option.ite_none_left_eq_some.mp hstep
    obtain rfl := Option.some.inj hsend
    exact hok
  | reply message =>
    obtain ⟨-, hreply⟩ := Option.ite_none_right_eq_some.mp hstep
    obtain rfl := Option.some.inj hreply
    exact ⟨fun other hother => hok.1 other (List.mem_append_left _ hother), hok.2⟩
  | event message =>
    obtain rfl := Option.some.inj hstep
    exact ⟨hok.1, fun other hother => hok.2 other (List.mem_append_left _ hother)⟩
  | lineReceived =>
    obtain ⟨line, rest, hchannel, rfl⟩ := step_lineReceived hstep
    exact hok

theorem run_invariants {actions : List ControlAction} (hrun : Run step (fun _ _ => True) initial actions s) :
    s.Numbered ∧ s.Sound ∧ (s.NoOk → s.Aligned) := by
  refine hrun.invariant (I := fun s => s.Numbered ∧ s.Sound ∧ (s.NoOk → s.Aligned)) ?_ ?_
  · rintro s t action ⟨hnumbered, hsound, haligned⟩ - hstep
    refine ⟨step_numbered hnumbered hstep, step_sound hsound hstep, fun hok => ?_⟩
    exact step_aligned (haligned (step_noOk hstep hok)) hnumbered hstep hok
  · exact ⟨initial_numbered, initial_sound, fun _ => initial_aligned⟩

end

/-- In every run the replies and events are taken as they were written exactly when all of them are
decodable; then this also holds of those that were taken so far. -/
theorem replies_matched_iff {actions : List ControlAction} {s : ControlLink}
    (hrun : Run step (fun _ _ => True) initial actions s) :
    (s.toConn = [] → (s.Delivered ↔ s.Decodable)) ∧ (s.Decodable → s.Delivering) := by
  obtain ⟨hnumbered, hsound, haligned⟩ := run_invariants hrun
  refine ⟨fun hdrained => ?_, fun hdecodable => ?_⟩
  · constructor
    · intro hdelivered
      have hok := hdelivered.noOk hsound
      exact ((haligned hok).delivered_iff hnumbered hok hdrained).mp hdelivered
    · intro hdecodable
      have hok := hdecodable.noOk
      exact ((haligned hok).delivered_iff hnumbered hok hdrained).mpr hdecodable
  · exact (haligned hdecodable.noOk).delivering hnumbered hdecodable

def code250 : Code := ⟨['2', '5', '0'], rfl, by decide⟩

def code650 : Code := ⟨['6', '5', '0'], rfl, by decide⟩

def okLine : Line := ⟨['O', 'K'], by decide⟩

/-- A reply with a line of data that begins with a dot. -/
def exampleReply : Message false where
  parts := [.block code250 ⟨['d', '='], by decide⟩ [⟨['.', 'a'], by decide⟩, ⟨['b'], by decide⟩]]
  code := code250
  text := okLine
  isEvent_eq := by decide

def exampleEvent : Message true where
  parts := [.block code650 ⟨['N', 'S'], by decide⟩ [⟨['r'], by decide⟩]]
  code := code650
  text := okLine
  isEvent_eq := by decide

/-- Two commands, and an event between their replies. -/
def exampleActions : List ControlAction :=
  [.sendAndRecv, .reply exampleReply, .lineReceived, .sendAndRecv, .event exampleEvent, .reply exampleReply] ++
    List.replicate 13 .lineReceived

theorem example_replies_matched : ∃ s, Run step (fun _ _ => True) initial exampleActions s ∧
    s.conn.handled = [⟨['6', '5', '0'], ['N', 'S'], some ['r', '\n']⟩] ∧ s.Delivered := by
  have hend : (exec step initial exampleActions).any (fun s => decide (s.toConn = [] ∧ s.Decodable ∧
      s.conn.handled = [⟨['6', '5', '0'], ['N', 'S'], some ['r', '\n']⟩])) = true := by
    decide
  obtain ⟨s, hrun, hs⟩ := exists_run hend (eachStep_true _ _)
  obtain ⟨hdrained, hdecodable, hhandled⟩ := of_decide_eq_true hs
  exact ⟨s, hrun, hhandled, ((replies_matched_iff hrun).1 hdrained).mpr hdecodable⟩

/-- The data of the second entry is read as that of the first. -/
def mixedReply : Message false where
  parts := [.mid code250 ⟨['v', '=', '1'], by decide⟩, .block code250 ⟨['d', '='], by decide⟩ [⟨['b'], by decide⟩]]
  code := code250
  text := okLine
  isEvent_eq := by decide

theorem data_to_other_entry : ∃ s, Run step (fun _ _ => True) initial
      ([.sendAndRecv, .reply mixedReply] ++ List.replicate 5 .lineReceived) s ∧
    s.toConn = [] ∧
    s.conn.fired = [(0, [⟨['2', '5', '0'], ['v', '=', '1'], some ['b', '\n']⟩,
      ⟨['2', '5', '0'], ['d', '='], some []⟩, ⟨['2', '5', '0'], ['O', 'K'], none⟩])] ∧ ¬s.Delivered := by
  have hend : (exec step initial ([.sendAndRecv, .reply mixedReply] ++ List.replicate 5 .lineReceived)).any
      (fun s => decide (s.toConn = [] ∧ s.conn.fired = [(0, [⟨['2', '5', '0'], ['v', '=', '1'], some ['b', '\n']⟩,
        ⟨['2', '5', '0'], ['d', '='], some []⟩, ⟨['2', '5', '0'], ['O', 'K'], none⟩])] ∧
        s.conn.fired.map Prod.snd ≠ s.replies.map Message.entries)) = true := by
    decide
  obtain ⟨s, hrun, hs⟩ := exists_run hend (eachStep_true _ _)
  obtain ⟨hdrained, hfired, hreplies⟩ := of_decide_eq_true hs
  exact ⟨s, hrun, hdrained, hfired, fun hdelivered => hreplies hdelivered.replies⟩

end ControlLink

end BitBlinder.Tor.TorCtl
