import BitBlinder.QueryString
import BitBlinder.BitTorrent.Rerequester
import Mathlib.Data.List.TakeWhile

/-!
# Anonymous tracker requests

The URL of an announcement, from `_announce` and `TrackerConnection._get_url`, and
`alter_query`, which decodes its query string, takes the address out and puts another
port in. The first value of each name is written back, in the order of the dictionary,
and so the query keeps its meaning if and only if it has no blank or repeated
parameter and no name that is quoted.
-/

namespace BitBlinder.BitTorrent.AlterQuery

open QueryString

set_option autoImplicit false

def ascii (s : String) : Text := s.toList.map fun c => UInt8.ofNat c.toNat

def question : UInt8 := 63

/-- `str` of a number. -/
def str (n : Nat) : Text := (Nat.toDigits 10 n).map fun c => UInt8.ofNat c.toNat

def strInt : Int → Text
  | .ofNat n => str n
  | .negSucc n => ascii "-" ++ str (n + 1)

def ipName : Text := ascii "ip"

def portName : Text := ascii "port"

/-! ### The URL of an announcement -/

/-- What `_announce` reads: `enoughPeers` is `howmany() >= max_initiate`. -/
structure Announcement where
  uploaded : Int
  downloaded : Int
  left : Int
  enoughPeers : Bool
  currentStatus : Option Status
  infohash : Text
  peerid : Text
  port : Nat

/-- The event is not announced when it is none or empty. -/
def eventText : Option Status → Text
  | none | some .update => []
  | some .started => ascii "&event=started"
  | some .completed => ascii "&event=completed"
  | some .stopped => ascii "&event=stopped"

/-- The arguments in front of the port. -/
def Announcement.beforePort (a : Announcement) : Text :=
  ascii "uploaded=" ++ strInt a.uploaded ++ ascii "&downloaded=" ++ strInt a.downloaded ++ ascii "&left=" ++
    strInt a.left ++ (if a.enoughPeers then ascii "&numwant=0" else ascii "&compact=1") ++
    eventText a.currentStatus ++ ascii "&info_hash=" ++ quote [] a.infohash ++ ascii "&peer_id=" ++ quote [] a.peerid

def Announcement.text (a : Announcement) : Text := a.beforePort ++ ascii "&port=" ++ str a.port

/-- A tracker, with the answers of its last response. -/
structure TrackerConnection where
  baseURL : Text
  key : Text
  last : Option Text
  trackerId : Option Text

def TrackerConnection.myArgs (t : TrackerConnection) (extraArgs : Text) : List Text :=
  let myArgs := [ascii "key=" ++ t.key]
  let myArgs := if extraArgs ≠ [] then myArgs ++ [extraArgs] else myArgs
  let myArgs :=
    match t.last with
    | some last => myArgs ++ [ascii "last=" ++ quote [] last]
    | none => myArgs
  match t.trackerId with
  | some trackerId => myArgs ++ [ascii "trackerid=" ++ quote [] trackerId]
  | none => myArgs

def TrackerConnection.getUrl (t : TrackerConnection) (extraArgs : Text) : Text :=
  let myArgsString := [amp].intercalate (t.myArgs extraArgs)
  if question ∈ t.baseURL then t.baseURL ++ amp :: myArgsString else t.baseURL ++ question :: myArgsString

/-! ### Another address and another port -/

/-- `urllib.quote` leaves the slash. -/
def slash : Text := [47]

def trackerOf (query : Text) : Text := query.takeWhile (· ≠ question)

/-- The text after the first question mark. -/
def queryOf (query : Text) : Text := (query.dropWhile (· ≠ question)).drop 1

def setArg (name value : Text) (args : List Arg) : List Arg :=
  args.map fun a => if a.name = name then { a with first := value, more := [] } else a

def removeArg (name : Text) (args : List Arg) : List Arg := args.filter fun a => a.name ≠ name

section
/- The order in which a dictionary is gone through. -/
variable (order : List Arg → List Arg)

def alterQuery (query : Text) (ip : Option Text) (port : Nat) : Text :=
  if question ∉ query then query
  else
    let args := parseQs (queryOf query)
    let args :=
      match ip with
      | some ip => setArg ipName ip args
      | none => removeArg ipName args
    let args := setArg portName (str port) args
    trackerOf query ++ question ::
      [amp].intercalate ((order args).map fun a => a.name ++ ascii "=" ++ quote slash a.first)

end

/-! ### What is kept -/

/-- Neither the address nor the port. -/
def Other (name : Text) : Bool := name ≠ ipName && name ≠ portName

/-- The parameters of the query that are to stay as they are. -/
def others (query : Text) : List (Text × Text) := (params query).filter fun p => Other p.1

structure KeepsMeaning (query newQuery : Text) (port : Nat) : Prop where
  noAddress : ∀ p ∈ params newQuery, p.1 ≠ ipName
  newPort : ((params newQuery).filter fun p => p.1 = portName) = [(portName, str port)]
  others : (others newQuery).Perm (others query)

/-- No parameter is blank or repeated, and each name stands for itself. -/
structure Plainly (args : List (Text × Text)) : Prop where
  notBlank : ∀ p ∈ args, p.2 ≠ []
  notRepeated : (args.map Prod.fst).Nodup
  notQuoted : ∀ p ∈ args, Verbatim p.1

theorem ipName_ne_portName : ipName ≠ portName := by decide

theorem verbatim_portName : Verbatim portName := by decide

theorem other_portName : Other portName = false := by decide

/-! ### What the dictionary holds -/

theorem entries_removeArg (name : Text) (args : List Arg) :
    (removeArg name args).map Arg.entry = (args.map Arg.entry).filter fun p => p.1 ≠ name := by
  unfold removeArg
  rw [List.filter_map]
  rfl

theorem entries_setArg (name value : Text) (args : List Arg) :
    (setArg name value args).map Arg.entry =
      (args.map Arg.entry).map fun p => if p.1 = name then (name, value) else p := by
  unfold setArg
  rw [List.map_map, List.map_map]
  apply List.map_congr_left
  intro a _
  by_cases hname : a.name = name
  · have hentry : a.entry.1 = name := hname
    rw [Function.comp_apply, Function.comp_apply, if_pos hname, if_pos hentry]
    exact Prod.ext hname rfl
  · have hentry : a.entry.1 ≠ name := hname
    rw [Function.comp_apply, Function.comp_apply, if_neg hname, if_neg hentry]

/-- A name of which there is one parameter gets its new value. -/
theorem set_perm {name : Text} (value : Text) {args : List (Text × Text)} (hnodup : (args.map Prod.fst).Nodup)
    (hmem : name ∈ args.map Prod.fst) :
    (args.map fun p => if p.1 = name then (name, value) else p).Perm
      ((args.filter fun p => p.1 ≠ name) ++ [(name, value)]) := by
  induction args with
  | nil => cases hmem
  | cons p args ih =>
    rw [List.map_cons, List.nodup_cons] at hnodup
    rw [List.map_cons]
    by_cases hname : p.1 = name
    · have hrest : ∀ q ∈ args, q.1 ≠ name := by
        intro q hq heq
        exact hnodup.1 (hname ▸ heq ▸ List.mem_map_of_mem hq)
      have hmap : args.map (fun p => if p.1 = name then (name, value) else p) = args :=
        (List.map_congr_left fun q hq => if_neg (hrest q hq)).trans (List.map_id _)
      have hfilter : (p :: args).filter (fun p => p.1 ≠ name) = args := by
        rw [List.filter_cons_of_neg (by simpa using hname)]
        exact List.filter_eq_self.mpr fun q hq => decide_eq_true (hrest q hq)
      rw [if_pos hname, hmap, hfilter]
      exact (List.perm_append_singleton _ _).symm
    · have hrest : name ∈ args.map Prod.fst :=
        (List.mem_cons.mp (List.map_cons ▸ hmem)).resolve_left fun heq => hname heq.symm
      rw [if_neg hname, List.filter_cons_of_pos (by simpa using hname), List.cons_append]
      exact (ih hnodup.2 hrest).cons p

theorem others_filter (query : Text) :
    (parseQsl false query).filter (fun p => Other p.1) = (others query).filter fun p => p.2 ≠ [] := by
  rw [parseQsl_false, others, List.filter_filter, List.filter_filter]
  exact List.filter_congr fun p _ => Bool.and_comm _ _

/-- Blank parameters are not in the dictionary, and of repeated ones the first is written. -/
def remaining (query : Text) : List (Text × Text) := firsts ((others query).filter fun p => p.2 ≠ [])

theorem remaining_sublist (query : Text) : (remaining query).Sublist (others query) :=
  (firsts_sublist _).trans List.filter_sublist

theorem remaining_eq_iff (query : Text) :
    (remaining query).length = (others query).length ↔
      (∀ p ∈ others query, p.2 ≠ []) ∧ ((others query).map Prod.fst).Nodup := by
  constructor
  · intro hlength
    have heq := (remaining_sublist query).eq_of_length hlength
    refine ⟨fun p hp => ?_, heq ▸ nodup_firsts _⟩
    have hmem := (firsts_sublist _).subset (heq.symm ▸ hp : p ∈ remaining query)
    exact of_decide_eq_true (List.mem_filter.mp hmem).2
  · rintro ⟨hblank, hnodup⟩
    unfold remaining
    rw [List.filter_eq_self.mpr fun p hp => decide_eq_true (hblank p hp), firsts_of_nodup hnodup]

theorem entries_perm (query : Text) (port : Nat) (hport : portName ∈ (parseQsl false query).map Prod.fst) :
    ((setArg portName (str port) (removeArg ipName (parseQs query))).map Arg.entry).Perm
      (remaining query ++ [(portName, str port)]) := by
  have hfirsts : (firsts (parseQsl false query)).filter (fun p => Other p.1) = remaining query := by
    rw [firsts_filter, others_filter]
    rfl
  have hnodup : (((firsts (parseQsl false query)).filter fun p => p.1 ≠ ipName).map Prod.fst).Nodup :=
    (nodup_firsts _).sublist (List.filter_sublist.map _)
  have hmem : portName ∈ ((firsts (parseQsl false query)).filter fun p => p.1 ≠ ipName).map Prod.fst := by
    obtain ⟨p, hp, hname⟩ := List.mem_map.mp ((names_firsts _ _).mpr hport)
    refine List.mem_map.mpr ⟨p, List.mem_filter.mpr ⟨hp, decide_eq_true ?_⟩, hname⟩
    exact hname ▸ ipName_ne_portName.symm
  have hset := set_perm (str port) hnodup hmem
  rw [List.filter_filter] at hset
  rw [entries_setArg, entries_removeArg, entries_parseQs, ← hfirsts]
  exact (List.filter_congr fun p _ => Bool.and_comm _ _) ▸ hset

/-! ### What is read back -/

theorem queryOf_append (tracker : Text) (query : Text) (h : question ∉ tracker) :
    queryOf (tracker ++ question :: query) = query := by
  have htracker : ∀ c ∈ tracker, decide (c ≠ question) = true := by
    intro c hc
    refine decide_eq_true ?_
    rintro rfl
    exact h hc
  unfold queryOf
  rw [List.dropWhile_append_of_pos htracker, List.dropWhile_cons_of_neg (by simp)]
  rfl

theorem queryOf_append_of_mem {baseURL : Text} (h : question ∈ baseURL) (rest : Text) :
    queryOf (baseURL ++ rest) = queryOf baseURL ++ rest := by
  unfold queryOf
  induction baseURL with
  | nil => cases h
  | cons c baseURL ih =>
    by_cases hc : c = question
    · subst hc
      rw [List.cons_append, List.dropWhile_cons_of_neg (by simp), List.dropWhile_cons_of_neg (by simp)]
      rfl
    · rw [List.cons_append, List.dropWhile_cons_of_pos (by simpa using hc),
        List.dropWhile_cons_of_pos (by simpa using hc)]
      exact ih ((List.mem_cons.mp h).resolve_left fun heq => hc heq.symm)

theorem harmless_slash : Harmless slash := by
  intro c hc
  rw [List.mem_singleton.mp hc]
  decide

theorem keepsMeaning_iff_perm (query newQuery : Text) (port : Nat) :
    KeepsMeaning query newQuery port ↔ (params newQuery).Perm (others query ++ [(portName, str port)]) := by
  have hport : ∀ p ∈ others query, p.1 ≠ ipName ∧ p.1 ≠ portName := by
    intro p hp
    have hother := (List.mem_filter.mp hp).2
    unfold Other at hother
    simpa using hother
  constructor
  · intro h
    have hsplit := List.filter_append_perm (fun p => Other p.1) (params newQuery)
    have hrest : (params newQuery).filter (fun p => !Other p.1) = [(portName, str port)] := by
      rw [← h.newPort]
      refine List.filter_congr fun p hp => ?_
      have haddress := h.noAddress p hp
      unfold Other
      simp [haddress]
    rw [hrest] at hsplit
    exact hsplit.symm.trans (h.others.append_right _)
  · intro h
    constructor
    · intro p hp
      rcases List.mem_append.mp (h.subset hp) with hp | hp
      · exact (hport p hp).1
      · rw [List.mem_singleton.mp hp]
        exact ipName_ne_portName.symm
    · have hfilter := h.filter fun p => decide (p.1 = portName)
      have hnone : (others query).filter (fun p => decide (p.1 = portName)) = [] :=
        List.filter_eq_nil_iff.mpr fun p hp => by simpa using (hport p hp).2
      have hone : ([(portName, str port)] : List (Text × Text)).filter (fun p => decide (p.1 = portName)) =
          [(portName, str port)] := List.filter_cons_of_pos (decide_eq_true rfl)
      rw [List.filter_append, hnone, hone] at hfilter
      exact List.perm_singleton.mp hfilter
    · have hfilter := h.filter fun p => Other p.1
      have hself : (others query).filter (fun p => Other p.1) = others query :=
        List.filter_eq_self.mpr fun p hp => (List.mem_filter.mp hp).2
      have hnone : ([(portName, str port)] : List (Text × Text)).filter (fun p => Other p.1) = [] :=
        List.filter_cons_of_neg (by rw [other_portName]; exact Bool.false_ne_true)
      rw [List.filter_append, hself, hnone, List.append_nil] at hfilter
      exact hfilter

section
variable {order : List Arg → List Arg} (horder : ∀ args, (order args).Perm args)
include horder

theorem queryOf_alterQuery {query : Text} (hquestion : question ∈ query) (port : Nat)
    (hport : portName ∈ (parseQsl false (queryOf query)).map Prod.fst) :
    ∃ args : List (Text × Text), args.Perm (remaining (queryOf query) ++ [(portName, str port)]) ∧
      queryOf (alterQuery order query none port) = [amp].intercalate (args.map (written slash)) := by
  refine ⟨(order (setArg portName (str port) (removeArg ipName (parseQs (queryOf query))))).map Arg.entry,
    ((horder _).map _).trans (entries_perm _ port hport), ?_⟩
  unfold alterQuery
  rw [if_neg (not_not_intro hquestion)]
  dsimp only
  have htracker : question ∉ trackerOf query := fun h => by simpa using List.mem_takeWhile_imp h
  rw [queryOf_append _ _ htracker, List.map_map]
  congr 1
  apply List.map_congr_left
  intro a _
  unfold written
  rw [List.append_assoc]
  rfl

/-- `alter_query` for any URL that has a query string with a port. -/
theorem keepsMeaning_iff {query : Text} (hquestion : question ∈ query) (port : Nat)
    (hport : portName ∈ (parseQsl false (queryOf query)).map Prod.fst) :
    KeepsMeaning (queryOf query) (queryOf (alterQuery order query none port)) port ↔
      Plainly (others (queryOf query)) := by
  obtain ⟨args, hargs, hquery⟩ := queryOf_alterQuery horder hquestion port hport
  have hsublist := remaining_sublist (queryOf query)
  rw [keepsMeaning_iff_perm, hquery]
  constructor
  · intro h
    have hsize : nameSize args ≤ nameSize (others (queryOf query) ++ [(portName, str port)]) :=
      nameSize_perm hargs ▸ nameSize_sublist (hsublist.append_right _)
    have hnames : ∀ p ∈ args, p.1 ∈ (others (queryOf query) ++ [(portName, str port)]).map Prod.fst :=
      fun p hp => List.mem_map_of_mem ((hsublist.append_right _).subset (hargs.subset hp))
    obtain ⟨hverbatim, hlength⟩ := verbatim_of_perm harmless_slash hsize hnames h
    rw [hargs.length_eq, List.length_append, List.length_append] at hlength
    have hremaining : (remaining (queryOf query)).length = (others (queryOf query)).length := Nat.add_right_cancel hlength
    have heq := hsublist.eq_of_length hremaining
    obtain ⟨hblank, hnodup⟩ := (remaining_eq_iff _).mp hremaining
    refine ⟨hblank, hnodup, fun p hp => hverbatim p (hargs.symm.subset ?_)⟩
    exact List.mem_append_left _ (heq.symm ▸ hp)
  · intro h
    have heq := hsublist.eq_of_length ((remaining_eq_iff _).mpr ⟨h.notBlank, h.notRepeated⟩)
    rw [heq] at hargs
    rw [params_join harmless_slash args]
    · exact hargs
    · intro p hp
      rcases List.mem_append.mp (hargs.subset hp) with hp | hp
      · exact h.notQuoted p hp
      · rw [List.mem_singleton.mp hp]
        exact verbatim_portName

end

/-! ### An announcement has a port -/

theorem str_plain (n : Nat) : ∀ c ∈ str n, Plain c := by
  have hplain : ∀ d < 58, 48 ≤ d → Plain (UInt8.ofNat d) := by decide
  intro c hc
  obtain ⟨d, hd, rfl⟩ := List.mem_map.mp hc
  have hdigit := Nat.isDigit_of_mem_toDigits (by decide) (by decide) hd
  unfold Char.isDigit at hdigit
  rw [Bool.and_eq_true, decide_eq_true_eq, decide_eq_true_eq] at hdigit
  exact hplain _ (Nat.lt_succ_of_le hdigit.2) hdigit.1

theorem str_ne_nil (n : Nat) : str n ≠ [] := fun h => Nat.toDigits_ne_nil (List.map_eq_nil_iff.mp h)

/-- The port that is announced is not blank. -/
theorem port_mem_params (a : Announcement) : (portName, decode (str a.port)) ∈ params a.text := by
  have htext : a.text = a.beforePort ++ amp :: (portName ++ equals :: str a.port) := by
    unfold Announcement.text
    rw [List.append_assoc]
    rfl
  rw [htext, params_append, params_pair verbatim_portName.1
    (fun c hc => ⟨(str_plain _ c hc).1, (str_plain _ c hc).2.1⟩), verbatim_portName.2]
  exact List.mem_append_right _ List.mem_cons_self

theorem mem_myArgs (t : TrackerConnection) {extraArgs : Text} (h : extraArgs ≠ []) : extraArgs ∈ t.myArgs extraArgs := by
  unfold TrackerConnection.myArgs
  dsimp only
  rw [if_pos h]
  cases t.last <;> cases t.trackerId <;> simp

theorem question_mem_getUrl (t : TrackerConnection) (extraArgs : Text) : question ∈ t.getUrl extraArgs := by
  unfold TrackerConnection.getUrl
  dsimp only
  split
  · exact List.mem_append_left _ ‹_›
  · exact List.mem_append_right _ List.mem_cons_self

/-- The arguments are a part of the query string, after the one of the tracker. -/
theorem params_getUrl (t : TrackerConnection) {extraArgs : Text} (h : extraArgs ≠ []) :
    ∀ p ∈ params extraArgs, p ∈ params (queryOf (t.getUrl extraArgs)) := by
  intro p hp
  have hargs : p ∈ params ([amp].intercalate (t.myArgs extraArgs)) := by
    rw [params_intercalate]
    exact List.mem_flatMap.mpr ⟨extraArgs, mem_myArgs t h, hp⟩
  unfold TrackerConnection.getUrl
  dsimp only
  split
  · rename_i hquestion
    rw [queryOf_append_of_mem hquestion, params_append]
    exact List.mem_append_right _ hargs
  · rename_i hquestion
    rw [queryOf_append _ _ hquestion]
    exact hargs

theorem portName_mem (t : TrackerConnection) (a : Announcement) :
    portName ∈ (parseQsl false (queryOf (t.getUrl a.text))).map Prod.fst := by
  have htext : a.text ≠ [] := List.append_ne_nil_of_right_ne_nil _ (str_ne_nil a.port)
  have hmem := params_getUrl t htext _ (port_mem_params a)
  rw [parseQsl_false]
  refine List.mem_map.mpr ⟨_, List.mem_filter.mpr ⟨hmem, decide_eq_true ?_⟩, rfl⟩
  exact fun h => str_ne_nil a.port (decode_eq_nil_iff.mp h)

/-- The query of an announcement keeps its meaning if and only if nothing in it, next to the address
and the port, is blank, repeated or quoted in its name. -/
theorem alterQuery_keepsMeaning_iff (order : List Arg → List Arg) (horder : ∀ args, (order args).Perm args)
    (t : TrackerConnection) (a : Announcement) (port : Nat) :
    KeepsMeaning (queryOf (t.getUrl a.text)) (queryOf (alterQuery order (t.getUrl a.text) none port)) port ↔
      Plainly (others (queryOf (t.getUrl a.text))) :=
  keepsMeaning_iff horder (question_mem_getUrl t a.text) port (portName_mem t a)

def exampleAnnouncement : Announcement where
  uploaded := 0
  downloaded := -1
  left := 5
  enoughPeers := false
  currentStatus := some .started
  infohash := [0, 38, 61, 43, 37, 255]
  peerid := [47, 32]
  port := 6881

def exampleTracker (baseURL : String) : TrackerConnection where
  baseURL := ascii baseURL
  key := ascii "00ff"
  last := none
  trackerId := some (ascii "a b")

theorem alterQuery_keepsMeaning_passkey :
    KeepsMeaning (queryOf ((exampleTracker "http://t/a?passkey=x&ip=1").getUrl exampleAnnouncement.text))
      (queryOf (alterQuery id ((exampleTracker "http://t/a?passkey=x&ip=1").getUrl exampleAnnouncement.text) none 2000))
      2000 :=
  (alterQuery_keepsMeaning_iff id (fun args => List.Perm.refl args) _ _ _).mpr
    ⟨by decide, by decide, by decide⟩

/-- A blank parameter and the second of two are lost. -/
theorem alterQuery_loses :
    ¬KeepsMeaning (queryOf ((exampleTracker "http://t/a?passkey=&n=1&n=2").getUrl exampleAnnouncement.text))
      (queryOf (alterQuery id ((exampleTracker "http://t/a?passkey=&n=1&n=2").getUrl exampleAnnouncement.text) none 2000))
      2000 := by
  rintro ⟨-, -, hothers⟩
  exact absurd hothers.length_eq (by decide)

end BitBlinder.BitTorrent.AlterQuery
