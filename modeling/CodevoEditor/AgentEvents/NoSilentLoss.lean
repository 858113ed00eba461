/-
# Nothing is lost silently

The rows that are no snapshots are the stream with adjacent text joined (`coalesceAdjacent`), and
each row stands for the events it was made of (`Represents`).
-/

import CodevoEditor.AgentEvents.UntruncatedRun

namespace CodevoEditor.AgentEvents

open Js Window List Option

def coalesceAdjacent (stream : List AgentTurnEvent) : List AgentTurnEvent :=
  stream.foldl (appendRow turnEventRetentionPolicy) []

/-- What a row of joined text is made of: one event of any kind, or the texts
of one channel, whose code units follow one another. -/
inductive Joins : List AgentTurnEvent → AgentTurnEvent → Prop
  | single (event : AgentTurnEvent) : Joins [event] event
  | texts (channel : TextChannel) (parentToolId : Option JsString) (texts : List JsString)
      (hne : texts ≠ []) : Joins (texts.map fun text => channel.event ⟨text, parentToolId⟩)
        (channel.event ⟨texts.flatten, parentToolId⟩)

lemma coalesceAdjacent_concat (stream) (event) :
    coalesceAdjacent (stream ++ [event]) = appendRow turnEventRetentionPolicy (coalesceAdjacent stream) event := by
  rw [coalesceAdjacent, foldl_append]; rfl

variable {event : AgentTurnEvent}

lemma appendRow_of_joins {before} {last fused}
    (h : coalesceAgentTextEvents last event = some fused) :
    appendRow turnEventRetentionPolicy (before ++ [last]) event = before ++ [fused] := by
  rw [appendRow, coalesceIntoLast_concat]
  exact congrArg (fun joined => (Option.map _ joined).getD _) h

variable {rows : List AgentTurnEvent}

lemma appendRow_of_parted (h : ∀ last, rows.getLast? = some last → Parted last event) :
    appendRow turnEventRetentionPolicy rows event = rows ++ [event] := by
  suffices coalesceIntoLast turnEventRetentionPolicy rows event = none by
    rw [appendRow, this]; rfl
  unfold coalesceIntoLast
  cases hlast : rows.getLast? with
  | none => rfl
  | some last => exact map_eq_none_iff.2 (h last hlast)

lemma Joins.concat {run} {last fused} (h : Joins run last)
    (hfu : coalesceAgentTextEvents last event = some fused) :
    Joins (run ++ [event]) fused := by
  obtain ⟨channel, ⟨lastText, parentToolId⟩, ⟨nextText, nextParent⟩, fusedText, hlast, rfl, rfl,
    ht⟩ := coalesceAgentTextEvents_eq_some_iff.1 hfu
  obtain ⟨rfl, -, rfl⟩ := coalesceTextEvents_eq_some_iff.1 ht
  rcases h with _ | ⟨channel', parentToolId', texts, hne⟩
  · have h := Joins.texts channel parentToolId [lastText, nextText] (cons_ne_nil _ _)
    rw [flatten_cons, flatten_singleton] at h
    rw [hlast]
    exact h
  · obtain ⟨rfl, htext⟩ := TextChannel.event_inj hlast
    obtain ⟨rfl, rfl⟩ := AgentTextEvent.mk.inj htext
    have h := Joins.texts channel' parentToolId' (texts ++ [nextText]) (append_ne_nil_of_left_ne_nil hne _)
    rw [flatten_append, flatten_singleton, map_append, map_singleton] at h
    exact h

lemma joins_coalesceAdjacent (stream) :
    ∃ runs, runs.flatten = stream ∧ List.Forall₂ (fun row run => Joins run row) (coalesceAdjacent stream) runs := by
  induction stream using List.reverseRecOn with
  | nil => exact ⟨[], rfl, .nil⟩
  | append_singleton stream event ih =>
    obtain ⟨runs, rfl, hruns⟩ := ih
    rw [coalesceAdjacent_concat]
    generalize coalesceAdjacent runs.flatten = rows at hruns ⊢
    by_cases hjoins : ∃ last fused, rows.getLast? = some last ∧ coalesceAgentTextEvents last event = some fused
    · obtain ⟨last, fused, hlast, hfu⟩ := hjoins
      obtain ⟨before, rfl⟩ := getLast?_eq_some_iff.1 hlast
      obtain ⟨front, run, back, rfl, hfr, hrun, hback⟩ := forall₂_split hruns
      obtain rfl := forall₂_nil_left_iff.1 hback
      refine ⟨front ++ [run ++ [event]], by simp, ?_⟩
      rw [appendRow_of_joins hfu]
      exact rel_append hfr (.cons (hrun.concat hfu) .nil)
    · refine ⟨runs ++ [[event]], by simp, ?_⟩
      rw [appendRow_of_parted fun last hlast => ?_]
      · exact rel_append hruns (.cons (.single event) .nil)
      · exact eq_none_iff_forall_not_mem.2 fun fused hfu =>
          hjoins ⟨last, fused, hlast, hfu⟩

lemma placement_of_not_snapshot (rows)
    (h : isAgentTurnSnapshotEvent event = false) : (placement rows event).1 = event := by
  unfold isAgentTurnSnapshotEvent at h
  unfold placement
  cases hev : agentTurnEventSupersession event with
  | barrier | content => rfl
  | snapshot target => rw [hev] at h; cases h

lemma isAgentTurnSnapshotEvent_iff : isAgentTurnSnapshotEvent event ↔ ∃ target, Snapshot event target := by
  unfold isAgentTurnSnapshotEvent
  constructor
  · intro h
    cases hev : agentTurnEventSupersession event with
    | barrier | content => rw [hev] at h; cases h
    | snapshot target => exact ⟨target, supersession_eq_snapshot_iff.1 hev⟩
  · rintro ⟨target, htarg⟩
    rw [supersession_eq_snapshot_iff.2 htarg]

variable {target : AgentTurnSnapshotTarget}

lemma Snapshot.not_text (h : Snapshot event target) : isAgentTurnCoalescibleTextEvent event = false := by
  cases h <;> rfl

/-- **Ids that are filled in.**  A running tick with one id gets the other from
a link that an event of the stream carries; every other event stays as it is. -/
inductive Filled (stream : List AgentTurnEvent) : AgentTurnEvent → AgentTurnEvent → Prop
  | own (event : AgentTurnEvent) : Filled stream event event
  | linked {event : SubagentEvent} {toolId taskId : JsString} {link : AgentTurnEvent}
      (hrunning : event.status = .running) (hlink : link ∈ stream)
      (halias : agentTurnSubagentAlias link = some (toolId, taskId))
      (hid : subagentIds event = ⟨some toolId, none⟩ ∨ subagentIds event = ⟨none, some taskId⟩) :
      Filled stream (.subagent event) (.subagent { event with toolId := some toolId, taskId := some taskId })

variable {stream stream' : List AgentTurnEvent} {placed : AgentTurnEvent}

lemma Filled.mono (hsub : stream ⊆ stream') (h : Filled stream event placed) : Filled stream' event placed := by
  rcases h with _ | ⟨hrunning, hlink, hal, hid⟩
  · exact .own event
  · exact .linked hrunning (hsub hlink) hal hid

lemma Filled.snapshot (h : Filled stream event placed) (htarg : Snapshot event target) :
    ∃ placedTarget, Snapshot placed placedTarget ∧ slotKeys target ⊆ slotKeys placedTarget := by
  rcases h with _ | ⟨hrunning, -, -, hid⟩
  · exact ⟨target, htarg, .refl _⟩
  · rename_i event toolId taskId link
    refine ⟨.subagentIds ⟨some toolId, some taskId⟩, .subagent hrunning (by simp), ?_⟩
    cases htarg with
    | subagent =>
      rcases hid with hid | hid
      · rw [hid]; simp [slotKeys]
      · rw [hid]; simp [slotKeys]

lemma filled_placement (rows) (event) :
    Filled rows event (placement rows event).1 := by
  rcases placement_cases rows event with hsame | ⟨toolId, taskId, hpl, hlink, -, hid⟩
  · rw [hsame]
    exact .own event
  · obtain ⟨link, hmem, hal⟩ := linkCount_ne_zero_iff.1 hlink
    obtain ⟨event, hrunning, rfl, hids⟩ := hid
    have h := Filled.linked hrunning hmem hal hids
    rw [hpl]
    rcases hids with hids | hids
    · obtain ⟨htool, htask⟩ := AgentTurnSubagentIds.mk.inj hids
      rwa [withAgentTurnSubagentIds, htool, htask]
    · obtain ⟨htool, htask⟩ := AgentTurnSubagentIds.mk.inj hids
      rwa [withAgentTurnSubagentIds, htool, htask]

/-- The rows, and the joined stream, without their snapshots. -/
def contentOf (rows : List AgentTurnEvent) : List AgentTurnEvent :=
  rows.filter fun row => !isAgentTurnSnapshotEvent row

lemma contentOf_append (rows rows') :
    contentOf (rows ++ rows') = contentOf rows ++ contentOf rows' := filter_append ..

variable {row : AgentTurnEvent}

lemma contentOf_cons_snapshot (h : Snapshot row target) (rows) : contentOf (row :: rows) = contentOf rows := by
  rw [contentOf, filter_cons_of_neg (by simp [isAgentTurnSnapshotEvent_iff.2 ⟨target, h⟩])]
  rfl

/-- The rows hold the content of the joined stream, and the same text is last
of both, so that the next text joins either alike. -/
structure SameContent (rows joined : List AgentTurnEvent) : Prop where
  content : contentOf rows = contentOf joined
  last : ∀ text, isAgentTurnCoalescibleTextEvent text → (rows.getLast? = some text ↔ joined.getLast? = some text)

lemma SameContent.concat {joined} (h : SameContent rows joined)
    (hcontent : contentOf [placed] = contentOf [event])
    (htext : ∀ text, isAgentTurnCoalescibleTextEvent text → (placed = text ↔ event = text)) :
    SameContent (rows ++ [placed]) (joined ++ [event]) := by
  constructor
  · rw [contentOf_append, contentOf_append, h.content, hcontent]
  · intro text ht
    rw [getLast?_concat, getLast?_concat, some_inj, some_inj]
    exact htext text ht

lemma SameContent.step {rows' joined} (h : SameContent rows joined)
    (hstep : RowStep rows event rows') :
    SameContent rows' (appendRow turnEventRetentionPolicy joined event) := by
  rcases hstep with ⟨hrows, hfu⟩ | ⟨-, htail, htarg, hrows, -, hmrg⟩ | ⟨-, hparted⟩
  · rename_i before last fused
    have htext := joinsText_turnEventRetentionPolicy.last hfu
    obtain ⟨before', rfl⟩ := getLast?_eq_some_iff.1 ((h.last last htext).1 (hrows ▸ getLast?_concat))
    have hpre := h.content
    rw [hrows, contentOf_append, contentOf_append] at hpre
    rw [appendRow_of_joins hfu]
    constructor
    · rw [contentOf_append, contentOf_append, append_cancel_right hpre]
    · intro text _
      rw [getLast?_concat, getLast?_concat]
  · rename_i before after previous merged target
    obtain ⟨hsnap, -, -⟩ := placement_target htarg
    obtain ⟨hprev, hmergedSnapshot⟩ := hmrg.snapshot hsnap
    have hev : isAgentTurnSnapshotEvent event := by
      by_contra hc
      rw [placement_of_not_snapshot rows (Bool.eq_false_iff.2 hc)] at hsnap
      exact hc (isAgentTurnSnapshotEvent_iff.2 ⟨target, hsnap⟩)
    obtain ⟨own, hown⟩ := isAgentTurnSnapshotEvent_iff.1 hev
    rw [appendRow_of_parted fun last _ => parted_of_not_text_right last hown.not_text]
    constructor
    · rw [contentOf_append, contentOf_append, contentOf_cons_snapshot hmergedSnapshot,
        contentOf_cons_snapshot hown, ← h.content, hrows, contentOf_append,
        contentOf_cons_snapshot hprev]
      exact (append_nil _).symm
    · intro text ht
      refine iff_of_false (fun hlast => ?_) fun hlast => ?_
      · -- the row last of all is not text, renewed or not
        rcases eq_nil_or_concat' after with rfl | ⟨after', last, rfl⟩
        · obtain rfl := some.inj (getLast?_concat.symm.trans hlast)
          rw [hmergedSnapshot.not_text] at ht
          cases ht
        · rw [← cons_append, ← append_assoc] at hlast hrows
          obtain rfl := some.inj (getLast?_concat.symm.trans hlast)
          rw [htail last (hrows ▸ getLast?_concat)] at ht
          cases ht
      · obtain rfl := some.inj (getLast?_concat.symm.trans hlast)
        rw [hown.not_text] at ht
        cases ht
  · rw [appendRow_of_parted fun last hlast => ?_]
    · cases hev : isAgentTurnSnapshotEvent event with
      | false =>
        rw [placement_of_not_snapshot rows hev]
        exact h.concat rfl fun text _ => .rfl
      | true =>
        obtain ⟨target, htarg⟩ := isAgentTurnSnapshotEvent_iff.1 hev
        obtain ⟨placedTarget, hpl, -⟩ := (filled_placement rows event).snapshot htarg
        refine h.concat ?_ fun text ht => iff_of_false ?_ ?_
        · rw [contentOf_cons_snapshot hpl, contentOf_cons_snapshot htarg]
        · rintro rfl
          rw [hpl.not_text] at ht
          cases ht
        · rintro rfl
          rw [htarg.not_text] at ht
          cases ht
    · cases htext : isAgentTurnCoalescibleTextEvent last with
      | false => exact parted_of_not_text_left htext event
      | true => exact hparted last ((h.last last htext).2 hlast)

/-- A row and the events it was made of, oldest first. -/
inductive MadeOf (stream : List AgentTurnEvent) : List AgentTurnEvent → AgentTurnEvent → Prop
  | placed {event placed : AgentTurnEvent} (hfill : Filled stream event placed) :
      MadeOf stream [event] placed
  | joined {events : List AgentTurnEvent} {last event fused : AgentTurnEvent}
      (h : MadeOf stream events last) (hfused : coalesceAgentTextEvents last event = some fused) :
      MadeOf stream (events ++ [event]) fused
  | renewed {events : List AgentTurnEvent} {previous event placed merged : AgentTurnEvent}
      (h : MadeOf stream events previous) (hfill : Filled stream event placed)
      (hmerged : Supersedes previous placed merged) : MadeOf stream (events ++ [event]) merged

variable {events : List AgentTurnEvent}

lemma MadeOf.mono (hsub : stream ⊆ stream') (h : MadeOf stream events row) : MadeOf stream' events row := by
  induction h with
  | placed hfill => exact .placed (hfill.mono hsub)
  | joined _ hfu ih => exact .joined ih hfu
  | renewed _ hfill hmrg ih => exact .renewed ih (hfill.mono hsub) hmrg

/-- **A row is under every identity of its events.** -/
theorem MadeOf.identity (h : MadeOf stream events row) (hmem : event ∈ events)
    (htarg : Snapshot event target) :
    ∃ rowTarget, Snapshot row rowTarget ∧ slotKeys target ⊆ slotKeys rowTarget := by
  induction h with
  | placed hfill =>
    obtain rfl := mem_singleton.1 hmem
    exact hfill.snapshot htarg
  | @joined events last next fused _ hfu ih =>
    -- text is no snapshot, neither the row so far nor the event
    obtain ⟨channel, lastText, nextText, -, rfl, rfl, -, -⟩ := coalesceAgentTextEvents_eq_some_iff.1 hfu
    rcases mem_append.1 hmem with hmem | hmem
    · obtain ⟨rowTarget, hrow, -⟩ := ih hmem
      have := hrow.not_text
      rw [isAgentTurnCoalescibleTextEvent_channelEvent] at this
      cases this
    · obtain rfl := mem_singleton.1 hmem
      have := htarg.not_text
      rw [isAgentTurnCoalescibleTextEvent_channelEvent] at this
      cases this
  | renewed _ hfill hmrg ih =>
    rcases mem_append.1 hmem with hmem | hmem
    · obtain ⟨rowTarget, hrow, hkeys⟩ := ih hmem
      exact ⟨rowTarget, (hmrg.snapshot_of_previous hrow).2, hkeys⟩
    · obtain rfl := mem_singleton.1 hmem
      obtain ⟨rowTarget, hpl, hkeys⟩ := hfill.snapshot htarg
      exact ⟨rowTarget, (hmrg.snapshot hpl).2, hkeys⟩

/-- **A row shows its latest event.**  Merging that event once more changes
nothing. -/
theorem MadeOf.latest (h : MadeOf stream events row) {latest}
    (hlatest : events.getLast? = some latest) (htarg : Snapshot latest target) :
    ∃ placed, Filled stream latest placed ∧ Supersedes row placed row := by
  rcases h with ⟨hfill⟩ | ⟨-, hfu⟩ | ⟨-, hfill, hmrg⟩
  · cases hlatest
    obtain ⟨placedTarget, hpl, -⟩ := hfill.snapshot htarg
    exact ⟨row, hfill, hpl.supersedes_self⟩
  · obtain rfl := some.inj (getLast?_concat.symm.trans hlatest)
    obtain ⟨channel, -, nextText, -, -, rfl, -, -⟩ := coalesceAgentTextEvents_eq_some_iff.1 hfu
    have := htarg.not_text
    rw [isAgentTurnCoalescibleTextEvent_channelEvent] at this
    cases this
  · obtain rfl := some.inj (getLast?_concat.symm.trans hlatest)
    exact ⟨_, hfill, hmrg.again⟩

/-- **What a row stands for**: events of the stream with their positions, oldest first, of whose
snapshots it has the identity and shows the latest. -/
structure Represents (stream : List AgentTurnEvent) (row : AgentTurnEvent)
    (origin : List (AgentTurnEvent × ℕ)) : Prop where
  increasing : origin.Pairwise fun entry entry' => entry.2 < entry'.2
  madeOf : MadeOf stream (origin.map Prod.fst) row
  identity : ∀ entry ∈ origin, ∀ target, Snapshot entry.1 target →
    ∃ rowTarget, Snapshot row rowTarget ∧ slotKeys target ⊆ slotKeys rowTarget
  latest : ∀ entry, origin.getLast? = some entry → ∀ target, Snapshot entry.1 target →
    ∃ placed, Filled stream entry.1 placed ∧ Supersedes row placed row

variable {origin : List (AgentTurnEvent × ℕ)}

lemma represents_of_madeOf (hincr : origin.Pairwise fun entry entry' => entry.2 < entry'.2)
    (h : MadeOf stream (origin.map Prod.fst) row) : Represents stream row origin where
  increasing := hincr
  madeOf := h
  identity _ hmem _ htarg := h.identity (mem_map_of_mem hmem) htarg
  latest _ hlast _ htarg := h.latest (by rw [getLast?_map, hlast]; rfl) htarg

lemma Represents.mono (hsub : stream ⊆ stream') (h : Represents stream row origin) :
    Represents stream' row origin := represents_of_madeOf h.increasing (h.madeOf.mono hsub)

lemma MadeOf.link (h : MadeOf stream events row) (hsub : events ⊆ stream)
    {link} (hlink : agentTurnSubagentAlias row = some link) :
    ∃ event ∈ stream, agentTurnSubagentAlias event = some link := by
  induction h with
  | placed hfill =>
    rcases hfill with _ | ⟨-, hmem, hal, -⟩
    · exact ⟨_, hsub (mem_singleton_self _), hlink⟩
    · exact ⟨_, hmem, hal.trans hlink⟩
  | joined _ hfu =>
    obtain ⟨channel, -, -, fusedText, -, -, rfl, -⟩ := coalesceAgentTextEvents_eq_some_iff.1 hfu
    cases channel <;> cases hlink
  | renewed _ _ hmrg ih =>
    exact ih (fun event hmem => hsub (mem_append_left _ hmem)) (hmrg.alias ▸ hlink)

/-- **Origins of the rows.**  Every position of the stream is in the origin of
one row, once. -/
structure Accounted (stream rows : List AgentTurnEvent)
    (origins : List (List (AgentTurnEvent × ℕ))) : Prop where
  perm : origins.flatten.Perm stream.zipIdx
  represents : List.Forall₂ (Represents stream) rows origins

variable {origins : List (List (AgentTurnEvent × ℕ))}

lemma Accounted.mem_stream (h : Accounted stream rows origins) (horigin : origin ∈ origins)
    {entry} (hent : entry ∈ origin) :
    entry.1 ∈ stream ∧ entry.2 < stream.length := by
  have hmem := h.perm.subset (mem_flatten_of_mem horigin hent)
  obtain ⟨hlt, heq⟩ := mem_zipIdx' hmem
  exact ⟨heq ▸ getElem_mem hlt, hlt⟩

lemma Accounted.filled (h : Accounted stream rows origins) (event) :
    Filled (stream ++ [event]) event (placement rows event).1 := by
  have hpl := filled_placement rows event
  generalize (placement rows event).1 = placed at hpl ⊢
  rcases hpl with _ | ⟨hrunning, hlink, hal, hid⟩
  · exact .own _
  · obtain ⟨before, after, rfl⟩ := append_of_mem hlink
    obtain ⟨before', origin, after', rfl, -, hrepresents, -⟩ := forall₂_split h.represents
    obtain ⟨source, hsource, hsourceAlias⟩ := hrepresents.madeOf.link
      (fun event hmem => by
        obtain ⟨entry, hent, rfl⟩ := mem_map.1 hmem
        exact (h.mem_stream (by simp) hent).1) hal
    exact .linked hrunning (mem_append_left _ hsource) hsourceAlias hid

lemma perm_concat {before after} (event)
    (h : (before ++ origin :: after).flatten.Perm stream.zipIdx) :
    (before ++ (origin ++ [(event, stream.length)]) :: after).flatten.Perm (stream ++ [event]).zipIdx := by
  rw [zipIdx_append, Nat.zero_add, zipIdx_singleton]
  refine .trans ?_ (h.append_right _)
  simp only [flatten_append, flatten_cons, append_assoc]
  refine Perm.append_left _ (Perm.append_left _ ?_)
  exact perm_append_comm

lemma Accounted.increasing (h : Accounted stream rows origins) (horigin : origin ∈ origins)
    (hincr : origin.Pairwise fun entry entry' => entry.2 < entry'.2) (event : AgentTurnEvent) :
    (origin ++ [(event, stream.length)]).Pairwise fun entry entry' => entry.2 < entry'.2 := by
  rw [pairwise_append]
  refine ⟨hincr, pairwise_singleton _ _, fun entry hent last hlast => ?_⟩
  rw [mem_singleton.1 hlast]
  exact (h.mem_stream horigin hent).2

lemma Accounted.step {rows'} (h : Accounted stream rows origins)
    (hstep : RowStep rows event rows') :
    ∃ origins', Accounted (stream ++ [event]) rows' origins' := by
  have hsub : stream ⊆ stream ++ [event] := subset_append_left _ _
  have hmono {rows} {origins} (hrows : List.Forall₂ (Represents stream) rows origins) :
      List.Forall₂ (Represents (stream ++ [event])) rows origins :=
    hrows.imp fun _ _ => Represents.mono hsub
  have hfill := h.filled event
  -- a row that is made anew at its place, of one event more
  have hrenew {before after : List AgentTurnEvent} {previous row : AgentTurnEvent}
      (hrows : rows = before ++ previous :: after)
      (hmade : ∀ events, MadeOf (stream ++ [event]) events previous →
        MadeOf (stream ++ [event]) (events ++ [event]) row) :
      ∃ origins', Accounted (stream ++ [event]) (before ++ row :: after) origins' := by
    subst hrows
    obtain ⟨before', origin, after', rfl, hpre, hrow, haft⟩ := forall₂_split h.represents
    refine ⟨before' ++ (origin ++ [(event, stream.length)]) :: after', perm_concat event h.perm,
      rel_append (hmono hpre) (.cons ?_ (hmono haft))⟩
    refine represents_of_madeOf (h.increasing (by simp) hrow.increasing event) ?_
    rw [map_append]
    exact hmade _ (hrow.madeOf.mono hsub)
  rcases hstep with ⟨hrows, hfu⟩ | ⟨-, -, -, hrows, -, hmrg⟩ | -
  · exact hrenew hrows fun events hlast => .joined hlast hfu
  · exact hrenew hrows fun events hprev => .renewed hprev hfill hmrg
  · refine ⟨origins ++ [[(event, stream.length)]], ?_, ?_⟩
    · rw [zipIdx_append, Nat.zero_add, zipIdx_singleton, flatten_append,
        flatten_singleton]
      exact h.perm.append_right _
    · refine rel_append (hmono h.represents) (.cons ?_ .nil)
      exact represents_of_madeOf (pairwise_singleton _ _) (.placed hfill)

/-- **No silent loss** where nothing is reported truncated: the rows are the stream with adjacent
text joined, and every position of the stream has its row, at least as recent. -/
theorem no_silent_loss {batches : List (List AgentTurnEvent)}
    (h : (mergeBatches batches).truncated = false) :
    contentOf (mergeBatches batches).events = contentOf (coalesceAdjacent batches.flatten) ∧
      (∃ runs, runs.flatten = batches.flatten ∧
        List.Forall₂ (fun row run => Joins run row) (coalesceAdjacent batches.flatten) runs) ∧
      ∃ origins, Accounted batches.flatten (mergeBatches batches).events origins := by
  have hrun : SameContent (mergeBatches batches).events (coalesceAdjacent batches.flatten) ∧
      ∃ origins, Accounted batches.flatten (mergeBatches batches).events origins := by
    refine untruncated_induct (P := fun stream rows =>
        SameContent rows (coalesceAdjacent stream) ∧ ∃ origins, Accounted stream rows origins)
      ⟨⟨rfl, fun _ _ => .rfl⟩, [], .refl _, .nil⟩
      (fun stream rows event rows' ih hstep => ?_) h
    obtain ⟨hcontent, origins, horigins⟩ := ih
    rw [coalesceAdjacent_concat]
    exact ⟨hcontent.step hstep, horigins.step hstep⟩
  exact ⟨hrun.1.content, joins_coalesceAdjacent _, hrun.2⟩

/-- A tick is renewed across a text, and the tick after the tool's own call is
not. -/
theorem no_silent_loss_of_ticks :
    let batches := [[subagentOf .running "t1" "k1", .assistantText ⟨js "a", none⟩, toolCallOf "t2"],
      [subagentOf .running "t1" "k1", toolCallOf "t1", subagentOf .running "t1" "k1"]]
    contentOf (mergeBatches batches).events = contentOf (coalesceAdjacent batches.flatten) ∧
      (∃ runs, runs.flatten = batches.flatten ∧
        List.Forall₂ (fun row run => Joins run row) (coalesceAdjacent batches.flatten) runs) ∧
      ∃ origins, Accounted batches.flatten (mergeBatches batches).events origins :=
  no_silent_loss (by decide +kernel)

end CodevoEditor.AgentEvents
