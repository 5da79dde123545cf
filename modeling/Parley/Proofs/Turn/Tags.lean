import Mathlib.Data.List.Induction
import Parley.Proofs.Step.Courses
import Parley.Proofs.Turn.History
import Parley.Proofs.Value.Entries

/-!
# Tags

What the tag steps of a session leave in its variables.
-/

/-!
## Tags and their log

A tag step sets or clears the variable of its tag and adds an entry to the log, which is a variable
too.  `replay` is what the actions of some steps make of a tag, and `log` the entries that these
steps write.

The variables follow a list of steps (`FollowTags`) when they hold its log, and for each tag what
the list makes of it.  A tag step leaves them following the list with the step at its end
(`FollowTags.concat`).

One tag is apart.  The variable of a tag named `changes` is the log itself (`logName_eq`), so this
tag is never found as it was left, and the log is all that is kept of it.
-/

namespace Parley.Step

open Template (fill)

/-! ### What steps make of tags -/

/-- A step that named a tag, with its action. -/
structure Tagging where
  name : String
  action : String
  deriving DecidableEq

/-- What an action makes of a tag that is held or not. -/
def outcome (action : String) (held : Bool) : Bool :=
  match action with
  | "remove" => false
  | "toggle" => !held
  | _ => true

/-- What steps make of a tag: their actions one after the other, from a tag that is not held. -/
def replay (ts : List Tagging) (name : String) : Bool :=
  ts.foldl (fun held t => if t.name = name then outcome t.action held else held) false

/-- What a step finds of a tag. In the place of the tag named `changes` it finds the log, which
counts as held once there is an entry. -/
def foundHeld (past : List Tagging) (name : String) : Bool :=
  if name = "changes" then !past.isEmpty else replay past name

/-- The entry of a step that leaves its tag held or not. -/
def logEntry (t : Tagging) (held : Bool) : Value :=
  .object [("tag", .text t.name), ("action", .text t.action), ("value", .bool held)]

/-- The entries of steps after those of the past. -/
def logFrom (past : List Tagging) : List Tagging → List Value
  | [] => []
  | t :: rest => logEntry t (outcome t.action (foundHeld past t.name)) :: logFrom (past ++ [t]) rest

/-- The log of steps: an entry for each, in order. -/
def log (ts : List Tagging) : List Value := logFrom [] ts

variable {ts : List Tagging} {t : Tagging}

/-- One more tagging sets its own tag. -/
theorem replay_concat (ts : List Tagging) (t : Tagging) (name : String) : replay (ts ++ [t]) name =
    if t.name = name then outcome t.action (replay ts name) else replay ts name := by
  rw [replay, List.foldl_append]
  rfl

/-- A tag that no step named is not held. -/
theorem replay_of_notMem {name : String} (h : name ∉ ts.map (·.name)) : replay ts name = false := by
  induction ts using List.reverseRecOn with
  | nil => rfl
  | append_singleton ts t ih =>
      rw [List.map_append, List.mem_append, not_or] at h
      have hne : t.name ≠ name := fun heq => h.2 (List.mem_singleton.mpr heq.symm)
      rw [replay_concat, if_neg hne, ih h.1]

/-- One more tagging is logged with what it comes to. -/
theorem logFrom_concat (past ts : List Tagging) (t : Tagging) : logFrom past (ts ++ [t]) =
    logFrom past ts ++ [logEntry t (outcome t.action (foundHeld (past ++ ts) t.name))] := by
  induction ts generalizing past with
  | nil => rw [List.nil_append, logFrom, logFrom, logFrom, List.append_nil, List.nil_append]
  | cons first rest ih =>
      rw [List.cons_append, logFrom, ih, logFrom, List.append_assoc, List.singleton_append,
        List.cons_append]

theorem log_concat (ts : List Tagging) (t : Tagging) :
    log (ts ++ [t]) = log ts ++ [logEntry t (outcome t.action (foundHeld ts t.name))] :=
      logFrom_concat [] ts t

/-- Each tagging is logged once. -/
theorem length_log (ts : List Tagging) : (log ts).length = ts.length := by
  induction ts using List.reverseRecOn with
  | nil => rfl
  | append_singleton ts t ih =>
      rw [log_concat, List.length_append, List.length_append, ih]
      rfl

/-- There is one entry for each step, in order. -/
theorem log_get? (ts : List Tagging) (k : Nat) :
    (log ts)[k]? = ts[k]?.map fun t => logEntry t
    (outcome t.action (foundHeld (ts.take k) t.name)) := by
  induction ts using List.reverseRecOn with
  | nil => rfl
  | append_singleton ts t ih =>
      rw [log_concat, List.getElem?_append, List.getElem?_append, length_log]
      split
      · next hk => rw [ih, List.take_append_of_le_length (Nat.le_of_lt hk)]
      · next hk =>
        cases hd : k - ts.length with
        | zero =>
            obtain rfl : k = ts.length := by omega
            rw [List.take_left']
            · rfl
            · rfl
        | succ i => rfl

/-! ### The last entry -/

/-- The tag of an entry. -/
def tagOf? : Value → Option String
  | .object fields =>
    match Entries.get? fields "tag" with
    | some (.text name) => some name
    | _ => none
  | _ => none

/-- The value of an entry. -/
def valueOf? : Value → Option Value
  | .object fields => Entries.get? fields "value"
  | _ => none

/-- The value in the last entry of a tag. -/
def lastValue? (entries : List Value) (name : String) : Option Value :=
  (entries.reverse.find? fun v => tagOf? v == some name).bind valueOf?

/-- The last entry of a name tells its value. -/
theorem lastValue?_concat (entries : List Value) (t : Tagging) (held : Bool) (name : String) :
    lastValue? (entries ++ [logEntry t held]) name =
      if t.name = name then some (.bool held) else lastValue? entries name := by
  have htag : tagOf? (logEntry t held) = some t.name := rfl
  unfold lastValue?
  rw [List.reverse_append, List.reverse_singleton, List.singleton_append]
  by_cases h : t.name = name
  · rw [if_pos h, List.find?_cons_of_pos (by simp [htag, h])]
    rfl
  · rw [if_neg h, List.find?_cons_of_neg (by simp [htag, h])]

/-- The last entry of a tag tells what the steps made of it, unless the tag is named `changes`. -/
theorem lastValue?_log {name : String} (hname : name ≠ "changes") (hmem : name ∈ ts.map (·.name)) :
    lastValue? (log ts) name = some (.bool (replay ts name)) := by
  induction ts using List.reverseRecOn with
  | nil => cases hmem
  | append_singleton ts t ih =>
      rw [log_concat, lastValue?_concat, replay_concat]
      split
      · next heq =>
        subst heq
        rw [foundHeld, if_neg hname]
      · next hne =>
        rw [List.map_append, List.mem_append, List.map_singleton, List.mem_singleton] at hmem
        exact ih (hmem.resolve_right fun heq => hne heq.symm)

/-! ### The variables -/

/-- The variable of a tag. -/
def tagName (name : String) : String := "tag_" ++ name

/-- The variable of the log. -/
def logName : String := "tag_changes"

/-- The log is the variable of a tag. -/
theorem logName_eq : logName = tagName "changes" := by decide

theorem tagName_eq_iff {name other : String} : tagName name = tagName other ↔ name = other :=
  String.append_right_inj _

/-- The tag that collides with the log is `changes`. -/
theorem tagName_eq_logName {name : String} : tagName name = logName ↔ name = "changes" := by
  rw [logName_eq, tagName_eq_iff]

/-- The variables hold the log of the steps, and of every tag what the steps made of it. -/
structure FollowTags (ts : List Tagging) (vars : Fields) : Prop where
  log : vars.get? logName = if ts = [] then none else some (.list (log ts))
  held (name : String) : name ≠ "changes" → vars.get? (tagName name) =
    if name ∈ ts.map (·.name) then some (.bool (replay ts name)) else none

variable {s : Setting} {id : String} {vars : Fields} {d : Flow.Tag} {e : Effect}

/-- What a tag step writes. -/
theorem changes_of_runTag (h : runTag s id vars d = .ok e) :
    ∃ filled entries, fill d.tagName vars = .ok filled ∧ tagChanges vars = .ok entries ∧
      let t : Tagging := ⟨Text.strip filled, d.action⟩
      let set := outcome d.action ((vars.get? (tagName t.name)).getD .null).isTruthy
      e.changes = Entries.ofPairs [(tagName t.name, .bool set),
          (logName, .list (entries ++ [logEntry t set]))] := by
  obtain ⟨filled, hfill, h⟩ := bind_eq_ok.mp h
  dsimp only at h
  split at h
  · cases h
  · obtain ⟨entries, hentries, h⟩ := bind_eq_ok.mp h
    obtain ⟨course, -, h⟩ := bind_eq_ok.mp h
    obtain rfl := pure_eq_ok.mp h
    refine ⟨filled, entries, hfill, hentries, ?_⟩
    -- the action is told apart once for the variable and once for the entry
    unfold outcome
    split <;> simp_all [tagName, logName, logEntry]

/-- Of two entries the second counts where both have the name. -/
theorem get?_update_pair (vars : Fields) (a b : String) (v w : Value) (name : String) :
    (vars.update (Entries.ofPairs [(a, v), (b, w)])).get? name =
      if b = name then some w else if a = name then some v else vars.get? name := by
  rw [Entries.get?_update_of_nodup (Entries.nodup_names_ofPairs _), Entries.ofPairs, Entries.update,
    List.foldl_cons, List.foldl_cons, List.foldl_nil, Entries.get?_put, Entries.get?_put]
  split
  · rfl
  · split <;> rfl

/-- The log is read as it stands. -/
theorem FollowTags.tagChanges (h : FollowTags ts vars) :
    Step.tagChanges vars = .ok (Step.log ts) := by
  have hlog := h.log
  unfold Step.tagChanges
  change vars.get? "tag_changes" = _ at hlog
  rw [hlog]
  cases ts with
  | nil => rfl
  | cons t rest => rfl

/-- A tag is found as the steps left it, or in its place the log. -/
theorem FollowTags.found (h : FollowTags ts vars) (name : String) :
    ((vars.get? (tagName name)).getD .null).isTruthy = foundHeld ts name := by
  unfold foundHeld
  split
  · next hname =>
    rw [tagName_eq_logName.mpr hname, h.log]
    cases ts with
    | nil => rfl
    | cons t rest => rfl
  · next hname =>
    rw [h.held name hname]
    split
    · rfl
    · next hmem => rw [replay_of_notMem hmem]; rfl

/-- **A tag step goes on with the log.** -/
theorem FollowTags.concat (h : FollowTags ts vars) (hr : runTag s id vars d = .ok e) :
    ∃ filled, fill d.tagName vars = .ok filled ∧
      FollowTags (ts ++ [⟨Text.strip filled, d.action⟩]) (vars.update e.changes) := by
  obtain ⟨filled, entries, hfill, hentries, hchanges⟩ := changes_of_runTag hr
  obtain rfl := Except.ok.inj (h.tagChanges.symm.trans hentries)
  dsimp only at hchanges
  rw [h.found] at hchanges
  refine ⟨filled, hfill, ?_, fun name hname => ?_⟩
  · rw [hchanges, get?_update_pair, if_pos rfl, if_neg (by simp), log_concat]
  · rw [hchanges, get?_update_pair, if_neg fun heq => hname (tagName_eq_logName.mp heq.symm),
      replay_concat, List.map_append, List.map_singleton]
    simp only [tagName_eq_iff, List.mem_append, List.mem_singleton]
    by_cases heq : Text.strip filled = name
    · rw [if_pos heq, if_pos (.inr heq.symm), if_pos heq, foundHeld, if_neg (heq ▸ hname), heq]
    · have hother : name ≠ Text.strip filled := fun hsame => heq hsame.symm
      rw [if_neg heq, if_neg heq, h.held name hname]
      simp only [hother, or_false]

/-- Whether variables follow the tags depends on the variables of tags only. -/
theorem FollowTags.congr {vars' : Fields} (h : FollowTags ts vars)
    (hv : ∀ name, vars'.get? (tagName name) = vars.get? (tagName name)) : FollowTags ts vars' :=
  ⟨by rw [logName_eq, hv, ← logName_eq, h.log], fun name hname => by rw [hv, h.held name hname]⟩

end Parley.Step

/-!
## The tags of a session

A session begins without tags, and no node but its tag nodes writes variables whose names begin as
those of tags do. Then its tag steps, over all its turns, are told by its variables: the log has an
entry for each of them in order, and the variable of a tag is what they made of it
(`followTags_of_history`).

So the variable of a tag is both the last entry of the tag in the log and the replay of its actions,
and that is so of every tag but one: the variable of a tag named `changes` is the log
(`tags_replay_log`).
-/

namespace Parley.Turn

open Step (Tagging FollowTags tagName logName)

/-- The name is that of the variable of a tag. -/
def isTagName : String → Bool := Entries.begins "tag_"

theorem isTagName_tagName (name : String) :
    isTagName (tagName name) = true := Entries.begins_append "tag_" name

/-- The tag that a node names, with the action of the node. -/
def taggingOf (n : Flow.Node) (vars : Fields) : Option Tagging :=
  match n.block with
  | .tag d => (Template.fill d.tagName vars).toOption.map fun name => ⟨Text.strip name, d.action⟩
  | _ => none

/-- The tag that a step named, if it had an effect. -/
def Stop.tagging? (st : Stop) :
    Option Tagging := st.effect?.bind fun _ => taggingOf st.node st.session.vars

/-- A node that is no tag node has written the variable of a tag. -/
def Stop.tampers (st : Stop) : Bool :=
  match st.node.block, st.effect? with
  | .tag _, _ => false
  | _, e? => e?.any fun e => e.changes.names.any isTagName

/-- The tag steps of a session, in order. -/
def taggings (stops : List Stop) : List Tagging := stops.filterMap Stop.tagging?

theorem taggings_concat (stops : List Stop) (st : Stop) :
    taggings (stops ++ [st]) = taggings stops ++ st.tagging?.toList := by
  rw [taggings, List.filterMap_append]
  cases h : st.tagging? <;> simp [taggings, h]

/-- The variable of a tag is written by nodes only. -/
theorem tagName_notMem_outside (name : String) : tagName name ∉ outside := by
  have hall : ∀ other ∈ outside, isTagName other = false := by decide
  exact fun h => absurd (isTagName_tagName name) (by simp [hall _ h])

variable {vars : Fields} {stops past : List Stop} {st : Stop} {ts : List Tagging}

/-- **One stop.**  What follows the tag steps so far follows them with the one of the stop, if it is
one. -/
theorem Stop.followTags (h : FollowTags ts st.session.vars) (hst : st.tampers = false)
    (hran : ∃ setting, ∀ o, st.fate = .over o →
      (Step.run setting st.node st.session st.answer).Ends o) :
    FollowTags (ts ++ st.tagging?.toList) (written st.session.vars st.effect?.toList) := by
  obtain ⟨setting, hran⟩ := hran
  cases he : st.effect? with
  | none => simpa [Stop.tagging?, he, written] using h
  | some e =>
      have hgives := Step.run_gives (hran _ (Stop.fate_of_effect he))
      unfold Step.effectOf at hgives
      unfold Stop.tampers at hst
      rw [Stop.tagging?, he, Option.bind_some, taggingOf]
      cases hb : st.node.block with
      | tag d =>
          rw [hb] at hgives
          obtain ⟨filled, hfill, hfollow⟩ := h.concat (Step.gives_lift.mp hgives)
          dsimp only
          rw [hfill]
          exact hfollow
      | _ =>
          rw [hb, he] at hst
          rw [Option.toList_none, List.append_nil]
          refine h.congr fun name => Entries.get?_update_of_notMem fun hmem => ?_
          exact absurd (isTagName_tagName name) (List.any_eq_false.mp hst _ hmem)

/-- **A whole history.**  After it the variables follow its tag steps. -/
theorem followTags_of_history (h : History vars stops)
    (hfirst : ∀ name, isTagName name = true → vars.get? name = none)
    (hstops : ∀ st ∈ stops, st.tampers = false) :
    FollowTags (taggings stops) (written vars (effects stops)) := by
  induction stops using List.reverseRecOn with
  | nil => exact ⟨hfirst _ (by decide), fun name _ => hfirst _ (isTagName_tagName name)⟩
  | append_singleton past st ih =>
      have hpast := ih h.before fun st hst => hstops st (List.mem_append_left _ hst)
      have hfound : FollowTags (taggings past) st.session.vars :=
        hpast.congr fun name => h.last.found _ (tagName_notMem_outside name)
      have hnext := Stop.followTags hfound
        (hstops st (List.mem_append_right _ (List.mem_singleton_self st))) h.last.ran
      rw [taggings_concat, effects_append, effects_singleton, written_append]
      exact hnext.congr fun name =>
        ((h.last.found.written st.effect?.toList) _ (tagName_notMem_outside name)).symm

/-- **The variables of tags replay their log, but for a tag named `changes`.**  A session begins
without tags and has come through any career, whatever its turns were told, whatever the
collaborators answered and whenever turns were cut short.  No node but tag nodes has written the
variable of a tag.  Then the log has exactly one entry for each tag step in order, with its tag and
its action.  And for every tag that a step named, its variable is what the steps made of it, and the
last entry of the tag says the same, just when the tag is not named `changes`: the variable of that
tag is the log itself. -/
theorem tags_replay_log {first s : Session} {legs : List Leg} (h : Career first legs s)
    (hfirst : ∀ name, isTagName name = true → first.vars.get? name = none)
    (hother : ∀ st ∈ legs.flatMap Leg.stops, st.tampers = false) :
    let ts := taggings (legs.flatMap Leg.stops)
    s.vars.get? logName = (if ts = [] then none else some (.list (Step.log ts))) ∧
      (Step.log ts).length = ts.length ∧
      (∀ (k : Nat) t, ts[k]? = some t → ∃ held, (Step.log ts)[k]? = some (Step.logEntry t held)) ∧
      (∀ name ∈ ts.map (·.name),
        (s.vars.get? (tagName name) = some (.bool (Step.replay ts name)) ∧
          Step.lastValue? (Step.log ts) name = some (.bool (Step.replay ts name))) ↔
            name ≠ "changes") ∧
      ∀ name ∉ ts.map (·.name), name ≠ "changes" → s.vars.get? (tagName name) = none := by
  intro ts
  obtain ⟨hhistory, halike⟩ := h.history
  have hfollow : FollowTags ts s.vars :=
    (followTags_of_history hhistory hfirst hother).congr fun name =>
      halike _ (tagName_notMem_outside name)
  refine ⟨hfollow.log, Step.length_log ts, fun k t hk => ⟨_, by rw [Step.log_get?, hk]; rfl⟩,
    fun name hmem => ⟨fun ⟨hvar, _⟩ hname => ?_, fun hname => ⟨?_, Step.lastValue?_log hname hmem⟩⟩,
    fun name hmem hname => ?_⟩
  · -- the variable of that tag is a list
    have hne : ts ≠ [] := by
      rintro hnil
      rw [hnil] at hmem
      cases hmem
    rw [Step.tagName_eq_logName.mpr hname, hfollow.log, if_neg hne] at hvar
    cases hvar
  · rw [hfollow.held name hname, if_pos hmem]
  · rw [hfollow.held name hname, if_neg hmem]

/-- A contact is tagged, the tag is turned over, and so is a tag with the name of the log. -/
def taggingSetting : Step.Setting :=
  ⟨{ id := "greeting"
     nodes := [{ id := "start", block := .start {} },
       { id := "vip", block := .tag { tagName := " vip " } },
       { id := "over", block := .tag { tagName := "vip", action := "toggle" } },
       { id := "log", block := .tag { tagName := "changes", action := "toggle" } },
       { id := "bye", block := .ending {} }]
     edges := [{ source := "start", target := "vip" }, { source := "vip", target := "over" },
       { source := "over", target := "log" }, { source := "log", target := "bye" }] }, {}, {}⟩

/-- A turn in which the tags are written. -/
def taggingTurn : List Stop × Ending :=
  ((tour taggingSetting newYear newcomer (some "hi") none).play (undisturbed silent 0) ()).1

/-- The tag is turned over to what its last entry says; the tag with the name of the log holds the
log, and its entry says that it is not held, though it has been turned over once. -/
theorem tags_replay_log_tagging :
    (Career newcomer [legOf taggingTurn] taggingTurn.2.session ∧
      (∀ name, isTagName name = true → newcomer.vars.get? name = none) ∧
      ∀ st ∈ [legOf taggingTurn].flatMap Leg.stops, st.tampers = false) ∧
    taggings ([legOf taggingTurn].flatMap Leg.stops) =
      [⟨"vip", "add"⟩, ⟨"vip", "toggle"⟩, ⟨"changes", "toggle"⟩] ∧
    taggingTurn.2.session.vars.get? (tagName "vip") = some (.bool false) ∧
    taggingTurn.2.session.vars.get? (tagName "changes") = some (.list
      [Step.logEntry ⟨"vip", "add"⟩ true, Step.logEntry ⟨"vip", "toggle"⟩ false,
        Step.logEntry ⟨"changes", "toggle"⟩ false]) ∧
    Step.replay [⟨"vip", "add"⟩, ⟨"vip", "toggle"⟩, ⟨"changes", "toggle"⟩] "changes" = true := by
  have hcareer : Career newcomer [legOf taggingTurn] taggingTurn.2.session :=
    Career.opening.played (Program.ends_play _ _ _) (by decide +kernel)
  have hfirst : ∀ name, isTagName name = true → newcomer.vars.get? name = none := fun _ _ => rfl
  have hother : ∀ st ∈ [legOf taggingTurn].flatMap Leg.stops,
    st.tampers = false := by decide +kernel
  have hts : taggings ([legOf taggingTurn].flatMap Leg.stops) =
      [⟨"vip", "add"⟩, ⟨"vip", "toggle"⟩, ⟨"changes", "toggle"⟩] := by decide +kernel
  obtain ⟨hlog, -, -, hheld, -⟩ := tags_replay_log hcareer hfirst hother
  rw [hts] at hlog hheld
  refine ⟨⟨hcareer, hfirst, hother⟩, hts, ((hheld "vip" (by decide)).mpr (by decide)).1,
    ?_, by decide⟩
  rw [← Step.logName_eq]
  exact hlog

end Parley.Turn
