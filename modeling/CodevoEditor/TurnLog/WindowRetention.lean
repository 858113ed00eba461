/-
# The window agrees with live retention

The window decides by sequence numbers and a map of live snapshots what live retention decides by
slots and `liveRow`.
-/

import CodevoEditor.AgentEvents.UntruncatedRun
import CodevoEditor.TurnLog.Runs

namespace CodevoEditor.TurnLog

open Js Window AgentEvents List Option OrderedMap Bool

variable {δ : Type} {policy : AgentTurnWindowPolicy} {retention : AgentTurnEventRetentionPolicy}

variable {merged : AgentTurnEvent} {seq : ℕ}

variable {object : EventObject}

namespace WindowState

/-- The row that an event would renew, with what it would hold. -/
def renewal (state : WindowState δ) (object : EventObject) : Option (ℕ × AgentTurnEvent) :=
  if state.tailIsText then none
  else
    (state.placed object).liveSlot.bind fun seq =>
      (state.live.get? seq).bind fun previous =>
        (mergeSupersededAgentTurnEvent previous (state.placed object).event).map (seq, ·)

/-- No bound of the window is reached by an event. -/
def withinBounds (policy : AgentTurnWindowPolicy) (state : WindowState δ) (object : EventObject) : Bool :=
  policy.eventBytes object.event ≤ policy.maxEventBytes &&
    !overOpBound policy state.nextSeq object.event &&
    match joined policy state object, state.renewal object with
    | some (seq, fused), _ => !overOpBound policy seq fused
    | none, some (seq, merged) => !overOpBound policy seq merged
    | none, none =>
        (state.withRow state.nextSeq (state.placed object).event).live.size ≤
            policy.maxLiveSnapshots &&
          (state.identities ∪ (identitiesOf (state.placed object).event).toFinset).card ≤ policy.maxIdentities

lemma renewal_eq_some_iff {state : WindowState δ} :
    state.renewal object = some (seq, merged) ↔ ∃ previous, Renews state object seq previous merged := by
  unfold renewal
  constructor
  · intro h
    split_ifs at h with htext
    obtain ⟨seq', hslot, h⟩ := bind_eq_some_iff.1 h
    obtain ⟨previous, hlive, h⟩ := bind_eq_some_iff.1 h
    obtain ⟨merged', hmrg, heq⟩ := map_eq_some_iff.1 h
    cases heq
    exact ⟨previous, hslot, eq_false_iff.2 htext, hlive, hmrg⟩
  · rintro ⟨previous, hslot, htext, hlive, hmrg⟩
    rw [htext, if_neg Bool.false_ne_true, hslot, Option.bind_some, hlive, Option.bind_some, hmrg, map_some]

end WindowState

lemma WindowState.withinBounds_spec {state : WindowState δ}
    (h : state.withinBounds policy object) :
    ¬ policy.maxEventBytes < policy.eventBytes object.event ∧
      overOpBound policy state.nextSeq object.event = false ∧
      (∀ join ∈ joined policy state object, overOpBound policy join.1 join.2 = false) ∧
      (joined policy state object = none →
        (∀ seq previous merged, Renews state object seq previous merged → overOpBound policy seq merged = false) ∧
        ((∀ seq previous merged, ¬ Renews state object seq previous merged) →
          (state.withRow state.nextSeq (state.placed object).event).live.size ≤
              policy.maxLiveSnapshots ∧
            (state.identities ∪ (identitiesOf (state.placed object).event).toFinset).card ≤
              policy.maxIdentities)) := by
  unfold withinBounds at h
  rw [and_eq_true, and_eq_true, decide_eq_true_iff, not_eq_true'] at h
  obtain ⟨⟨hby, hop⟩, hrow⟩ := h
  refine ⟨by omega, hop, ?_, fun hnone => ⟨?_, fun hnever => ?_⟩⟩
  · rintro ⟨seq, fused⟩ hjoin
    rw [mem_def.1 hjoin] at hrow
    simpa using hrow
  · intro seq previous merged hrenews
    rw [hnone, renewal_eq_some_iff.2 ⟨previous, hrenews⟩] at hrow
    simpa using hrow
  · have hrenewal : state.renewal object = none := by
      refine eq_none_iff_forall_ne_some.2 fun ⟨seq, merged⟩ hsome => ?_
      obtain ⟨previous, hrenews⟩ := renewal_eq_some_iff.1 hsome
      exact hnever seq previous merged hrenews
    rw [hnone, hrenewal] at hrow
    simpa using hrow

/-- No bound is reached by the events of a batch, one after the other. -/
def eventsWithinBounds (policy : AgentTurnWindowPolicy) (state : WindowState δ) :
    List EventObject → Bool
  | [] => true
  | object :: objects =>
      state.withinBounds policy object && eventsWithinBounds policy (state.acceptEvent policy object) objects

/-- No bound is reached by an action; a row that is clipped is too large to be stored. -/
def WindowRun.withinBounds (policy : AgentTurnWindowPolicy) (given : ℕ → AgentTurnEvent)
    (run : WindowRun δ) : WindowAction → Bool
  | .accept objects => eventsWithinBounds policy run.window (objects.map (givenObject given))
  | .clip _ => false
  | _ => true

/-- No bound is reached by the actions, one after the other. -/
def WindowRun.neverReaches (policy : AgentTurnWindowPolicy)
    (foldDigest : δ → List AgentTurnEvent → δ) (given : ℕ → AgentTurnEvent) (run : WindowRun δ) :
    List WindowAction → Bool
  | [] => true
  | action :: actions =>
      run.withinBounds policy given action &&
        neverReaches policy foldDigest given (run.step policy foldDigest given action) actions

/-- The events that are accepted, in order. -/
def acceptedStream (given : ℕ → AgentTurnEvent) (actions : List WindowAction) : List AgentTurnEvent :=
  actions.flatMap fun
    | .accept objects => objects.map given
    | _ => []

/-- The row with a sequence number. -/
def rowAt (firstSeq : ℕ) (rows : List AgentTurnEvent) (seq : ℕ) : Option AgentTurnEvent :=
  if firstSeq ≤ seq then rows[seq - firstSeq]? else none

variable {event : AgentTurnEvent} {firstSeq : ℕ} {rows : List AgentTurnEvent}

lemma mem_zipIdx_iff_rowAt : (event, seq) ∈ rows.zipIdx firstSeq ↔ rowAt firstSeq rows seq = some event := by
  rw [mk_mem_zipIdx_iff_le_and_getElem?_sub, rowAt]
  split_ifs with hle
  · exact and_iff_right hle
  · simp [hle]

lemma pairwise_zipIdx (firstSeq : ℕ) (rows : List AgentTurnEvent) :
    (rows.zipIdx firstSeq).Pairwise fun a b => a.2 < b.2 := by
  have hsort := pairwise_lt_range' (s := firstSeq) (n := rows.length) 1
  rw [← zipIdx_map_snd firstSeq rows, pairwise_map] at hsort
  exact hsort

lemma rowAt_append (firstSeq : ℕ) (rows) (event)
    (seq : ℕ) :
    rowAt firstSeq (rows ++ [event]) seq =
      if seq = firstSeq + rows.length then some event else rowAt firstSeq rows seq := by
  unfold rowAt
  split_ifs with hle hseq hseq
  · rw [getElem?_append_right (by omega), hseq, Nat.add_sub_cancel_left, Nat.sub_self]
    rfl
  · by_cases hlt : seq - firstSeq < rows.length
    · rw [getElem?_append_left hlt]
    · rw [getElem?_eq_none (by simp; omega), getElem?_eq_none (by omega)]
  · omega
  · rfl

lemma rowAt_split (firstSeq : ℕ) (before after)
    (event event') (seq : ℕ) :
    rowAt firstSeq (before ++ event' :: after) seq =
      if seq = firstSeq + before.length then some event'
      else rowAt firstSeq (before ++ event :: after) seq := by
  unfold rowAt
  split_ifs with hle hseq hseq
  · rw [getElem?_append_right (by omega), hseq, Nat.add_sub_cancel_left, Nat.sub_self]
    rfl
  · by_cases hlt : seq - firstSeq < before.length
    · rw [getElem?_append_left hlt, getElem?_append_left hlt]
    · rw [getElem?_append_right (by omega), getElem?_append_right (by omega)]
      obtain ⟨k, hk⟩ : ∃ k, seq - firstSeq - before.length = k + 1 := ⟨seq - firstSeq - before.length - 1, by omega⟩
      rw [hk]
      rfl
  · omega
  · rfl

/-- The tail of a window is the last row, or what that held before it was renewed. -/
inductive TailOf (firstSeq : ℕ) : List AgentTurnEvent → Option WindowRow → Prop
  | empty : TailOf firstSeq [] none
  | row {rows : List AgentTurnEvent} {last shown : AgentTurnEvent}
      (hshown : shown = last ∨ isAgentTurnCoalescibleTextEvent shown = false ∧
        isAgentTurnCoalescibleTextEvent last = false) :
      TailOf firstSeq (rows ++ [last]) (some ⟨firstSeq + rows.length, shown⟩)

/-- What a window knows of its rows while it has forgotten nothing. -/
structure Follows (policy : AgentTurnWindowPolicy) (firstSeq : ℕ) (state : WindowState δ)
    (rows : List AgentTurnEvent) : Prop where
  nextSeq : state.nextSeq = firstSeq + rows.length
  indexed : ∃ index, state.snapshots = .live index ∧ Indexes index (rows.zipIdx firstSeq)
  tail : TailOf firstSeq rows state.tail
  live : ∀ seq, state.live.get? seq = (rowAt firstSeq rows seq).filter isAgentTurnSnapshotEvent
  size : state.live.size ≤ policy.maxLiveSnapshots
  bounded : state.bounded = false

variable {tail : Option WindowRow}

lemma TailOf.isText (h : TailOf firstSeq rows tail) :
    (tail.any fun tail => isAgentTurnCoalescibleTextEvent tail.event) =
      rows.getLast?.any isAgentTurnCoalescibleTextEvent := by
  cases h with
  | empty => rfl
  | @row rows last shown hshn =>
    rw [getLast?_concat, any_some, any_some]
    rcases hshn with rfl | ⟨hshn, hlast⟩
    · rfl
    · rw [hshn, hlast]

/-- **A text joins the tail of the window where it joins the last row.** -/
theorem TailOf.joins (hjoins : JoinsText retention)
    (h : TailOf firstSeq rows tail) (event) :
    (tail = none ∧ rows = [] ∧ coalesceIntoLast retention rows event = none) ∨
      ∃ init last shown, rows = init ++ [last] ∧ tail = some ⟨firstSeq + init.length, shown⟩ ∧
        retention.coalesceText shown event = retention.coalesceText last event ∧
        coalesceIntoLast retention rows event =
          (retention.coalesceText last event).map fun fused => init ++ [fused] := by
  cases h with
  | empty => exact .inl ⟨rfl, rfl, rfl⟩
  | @row init last shown hshn =>
    refine .inr ⟨init, last, shown, rfl, rfl, ?_, coalesceIntoLast_concat init last event⟩
    have hnone : ∀ row, isAgentTurnCoalescibleTextEvent row = false → retention.coalesceText row event = none := by
      intro row hrow
      refine eq_none_iff_forall_ne_some.2 fun fused hfu => ?_
      rw [hjoins.last hfu] at hrow
      cases hrow
    rcases hshn with rfl | ⟨hshn, hlast⟩
    · rfl
    · rw [hnone shown hshn, hnone last hlast]

lemma coalescible_of_snapshot (h : isAgentTurnSnapshotEvent event) :
    isAgentTurnCoalescibleTextEvent event = false := by
  cases htext : isAgentTurnCoalescibleTextEvent event with
  | false => rfl
  | true =>
    have hshape := (Prod.mk.inj (content_of_coalescible htext).1).1
    rw [isAgentTurnSnapshotEvent, hshape] at h
    cases h

variable {previous : AgentTurnEvent} {before after : List AgentTurnEvent}

lemma TailOf.renew (h : TailOf firstSeq (before ++ previous :: after) tail)
    (hprev : isAgentTurnSnapshotEvent previous)
    (hmrg : isAgentTurnSnapshotEvent merged) :
    TailOf firstSeq (before ++ merged :: after) tail := by
  have hcl := coalescible_of_snapshot hmrg
  generalize hrows : before ++ previous :: after = rows at h
  cases h with
  | empty => simp at hrows
  | @row init last shown hshn =>
    rcases eq_nil_or_concat after with rfl | ⟨after, last', rfl⟩
    · obtain ⟨rfl, hlast⟩ := append_inj' hrows rfl
      obtain rfl := singleton_inj.1 hlast
      refine .row (.inr ⟨?_, hcl⟩)
      rcases hshn with rfl | ⟨hshn, -⟩
      · exact coalescible_of_snapshot hprev
      · exact hshn
    · rw [concat_eq_append, ← cons_append, ← append_assoc] at hrows ⊢
      obtain ⟨rfl, hlast⟩ := append_inj' hrows rfl
      obtain rfl := singleton_inj.1 hlast
      have hlen : (before ++ merged :: after).length = (before ++ previous :: after).length := by
        simp
      rw [← hlen]
      exact .row hshn

variable {content : ℕ → Option AgentTurnEvent}

section Step

variable {firstSeq : ℕ} {state next : WindowState δ} {rows : List AgentTurnEvent}
  {object : EventObject}

variable {fused : AgentTurnEvent}

lemma coalesceIntoLast_of_joined (hjoins : JoinsText retention)
    (hcoal : retention.coalesceText = policy.coalesceText)
    (htail : TailOf firstSeq rows state.tail)
    (hjoined : WindowState.joined policy state object = some (seq, fused)) :
    ∃ init last, rows = init ++ [last] ∧ seq = firstSeq + init.length ∧
      coalesceIntoLast retention rows object.event = some (init ++ [fused]) ∧
      isAgentTurnCoalescibleTextEvent last ∧
      isAgentTurnCoalescibleTextEvent fused := by
  rcases htail.joins hjoins object.event with ⟨hnone, -, -⟩ | ⟨init, last, shown, rfl, hsome, hsame, h⟩
  · rw [WindowState.joined, hnone] at hjoined
    cases hjoined
  · rw [WindowState.joined, hsome, bind_some, ← hcoal, hsame] at hjoined
    obtain ⟨fused', hfu, heq⟩ := map_eq_some_iff.1 hjoined
    cases heq
    refine ⟨init, last, rfl, rfl, ?_, hjoins.last hfu, hjoins.fused hfu⟩
    rw [h, hfu]
    rfl

lemma coalesceIntoLast_of_not_joined (hjoins : JoinsText retention)
    (hcoal : retention.coalesceText = policy.coalesceText)
    (htail : TailOf firstSeq rows state.tail)
    (hjoined : WindowState.joined policy state object = none) :
    coalesceIntoLast retention rows object.event = none := by
  rcases htail.joins hjoins object.event with ⟨-, -, hnone⟩ | ⟨init, last, shown, rfl, hsome, hsame, h⟩
  · exact hnone
  · rw [WindowState.joined, hsome, bind_some, ← hcoal, hsame,
      map_eq_none_iff] at hjoined
    rw [h, hjoined]
    rfl

lemma Follows.placed_event (h : Follows policy firstSeq state rows) (object) :
    (state.placed object).event = (placement rows object.event).1 := by
  obtain ⟨index, hidx, hknows⟩ := h.indexed
  have hpl := (placeEvent_spec hknows object.event).1
  rw [zipIdx_map_fst] at hpl
  rw [WindowState.placed, hidx]
  exact hpl

lemma Follows.live_of_slot (h : Follows policy firstSeq state rows)
    (hslot : (state.placed object).liveSlot = some seq) :
    ∃ previous, rowAt firstSeq rows seq = some previous ∧
      isAgentTurnSnapshotEvent previous ∧ state.live.get? seq = some previous := by
  obtain ⟨index, hidx, hknows⟩ := h.indexed
  rw [WindowState.placed, hidx] at hslot
  obtain ⟨target, htarg, hkeys⟩ := ((placeEvent_spec hknows object.event).2 seq).1 hslot
  obtain ⟨key, hkey⟩ := exists_mem_of_ne_nil _ (placement_target htarg).2.1
  obtain ⟨before, row, after, hspl, hclaimed, -⟩ := hknows.sound key seq (hkeys key hkey)
  have hrow : rowAt firstSeq rows seq = some row := by
    rw [← mem_zipIdx_iff_rowAt, hspl]
    exact mem_append_right _ mem_cons_self
  have hsnap : isAgentTurnSnapshotEvent row := by
    have hown := (mem_claimedKeys_iff.1 hclaimed).1
    unfold snapshotKeys at hown
    unfold isAgentTurnSnapshotEvent
    cases hrow' : agentTurnEventSupersession row with
    | snapshot target => rfl
    | barrier | content =>
      rw [hrow'] at hown
      cases hown
  exact ⟨row, hrow, hsnap, by rw [h.live, hrow, filter_some, if_pos hsnap]⟩

variable {rows' : List AgentTurnEvent}

lemma Follows.placement_iff (h : Follows policy firstSeq state rows) :
    ((placement rows object.event).2.bind fun target =>
        supersedeRow rows target (placement rows object.event).1) = some rows' ↔
      ∃ before previous after merged, rows = before ++ previous :: after ∧
        WindowState.Renews state object (firstSeq + before.length) previous merged ∧
        rows' = before ++ merged :: after := by
  obtain ⟨index, hidx, hknows⟩ := h.indexed
  have hpl : state.placed object = index.placeEvent object.event := by
    rw [WindowState.placed, hidx]
    rfl
  have hiff := @supersedes_iff_liveSlot object.event _ _ hknows (pairwise_zipIdx firstSeq rows) rows'
  rw [zipIdx_map_fst, ← h.tail.isText, ← hpl] at hiff
  refine hiff.trans ⟨?_, ?_⟩
  · rintro ⟨htext, entries, previous, seq, entries', merged, hspl, hslot, hmrg, rfl⟩
    obtain ⟨before, rest, rfl, rfl, hrest⟩ := zipIdx_eq_append_iff.1 hspl
    obtain ⟨row, after, rfl, hent, rfl⟩ := zipIdx_eq_cons_iff.1 hrest.symm
    cases hent
    obtain ⟨held, hrow, -, hlive⟩ := h.live_of_slot hslot
    have hprev : held = previous := by
      rw [rowAt_split firstSeq before after previous previous, if_pos rfl] at hrow
      exact (some.inj hrow).symm
    refine ⟨before, previous, after, merged, rfl, ⟨hslot, htext, hprev ▸ hlive, hmrg⟩, ?_⟩
    rw [zipIdx_map_fst, zipIdx_map_fst]
  · rintro ⟨before, previous, after, merged, rfl, ⟨hslot, htext, -, hmrg⟩, rfl⟩
    refine ⟨htext, before.zipIdx firstSeq, previous, firstSeq + before.length,
      after.zipIdx (firstSeq + before.length + 1), merged, ?_, hslot, hmrg, ?_⟩
    · rw [zipIdx_append, zipIdx_cons]
    · rw [zipIdx_map_fst, zipIdx_map_fst]

lemma overlay_marked (hmarks : WindowState.Marks state next object seq event)
    (hrows : ∀ other, rowAt firstSeq rows' other = if other = seq then some event else rowAt firstSeq rows other)
    (hcontent : overlay state.dirty content = rowAt firstSeq rows) :
    overlay next.dirty content = rowAt firstSeq rows' := by
  obtain ⟨-, marked, hdrt, rfl, -⟩ := hmarks
  funext other
  rw [hrows, ← hcontent]
  unfold overlay
  rw [hdrt, get?_set]
  split_ifs
  · rfl
  · rfl

lemma indexes_rewrite (hshape : rowShape previous = rowShape event)
    (h : ∃ index, state.snapshots = .live index ∧ Indexes index ((before ++ previous :: after).zipIdx firstSeq)) :
    ∃ index, state.snapshots = .live index ∧ Indexes index ((before ++ event :: after).zipIdx firstSeq) := by
  obtain ⟨index, hidx, hknows⟩ := h
  refine ⟨index, hidx, hknows.congr ?_⟩
  simp only [zipIdx_append, zipIdx_cons, map_append, map_cons, Prod.map_apply, hshape]

lemma isAgentTurnSnapshotEvent_congr {event'}
    (hshape : rowShape event = rowShape event') :
    isAgentTurnSnapshotEvent event = isAgentTurnSnapshotEvent event' := by
  unfold isAgentTurnSnapshotEvent
  rw [(Prod.mk.inj hshape).1]

lemma Follows.joined {init} {last}
    (h : Follows policy firstSeq state (init ++ [last]))
    (hlast : isAgentTurnCoalescibleTextEvent last)
    (hfu : isAgentTurnCoalescibleTextEvent fused)
    (htail : next.tail = some ⟨firstSeq + init.length, fused⟩)
    (hseq : next.nextSeq = state.nextSeq) (hlive : next.live = state.live)
    (hsnaps : next.snapshots = state.snapshots) (hbounded : next.bounded = state.bounded) :
    Follows policy firstSeq next (init ++ [fused]) := by
  have hshape : rowShape last = rowShape fused := by
    rw [(content_of_coalescible hlast).1, (content_of_coalescible hfu).1]
  have hplain : isAgentTurnSnapshotEvent last = false := by
    have hown := (Prod.mk.inj (content_of_coalescible hlast).1).1
    rw [isAgentTurnSnapshotEvent, hown]
  refine ⟨?_, hsnaps ▸ indexes_rewrite hshape h.indexed, htail ▸ .row (.inl rfl), fun seq => ?_,
    hlive ▸ h.size, hbounded ▸ h.bounded⟩
  · rw [hseq, h.nextSeq, length_append, length_append]
    rfl
  · rw [hlive, h.live, rowAt_append, rowAt_append]
    split_ifs
    · rw [filter_some, filter_some, ← isAgentTurnSnapshotEvent_congr hshape, hplain]
      rfl
    · rfl

lemma size_withLive_of_mem (hlive : state.live.get? seq = some previous) (event) :
    (state.withLive seq event).live.size ≤ state.live.size := by
  have hmem : seq ∈ state.live.keys := mem_keys_iff.2 (by rw [hlive]; rfl)
  have hlt := size_delete_lt hmem
  have hset := size_set (state.live.delete seq) seq event
  unfold WindowState.withLive
  dsimp only
  split_ifs at hset <;> omega

lemma Follows.renewed (h : Follows policy firstSeq state (before ++ previous :: after))
    (hshape : rowShape previous = rowShape merged)
    (hprev : isAgentTurnSnapshotEvent previous) (htail : next.tail = state.tail)
    (hseq : next.nextSeq = state.nextSeq)
    (hkept : next.bounded = false → state.bounded = false ∧ next.snapshots = state.snapshots ∧
      next.live = (state.withLive (firstSeq + before.length) merged).live)
    (hbounded : (state.withLive (firstSeq + before.length) merged).live.size ≤ policy.maxLiveSnapshots →
      next.bounded = state.bounded) :
    Follows policy firstSeq next (before ++ merged :: after) := by
  have hmrg := hprev
  rw [isAgentTurnSnapshotEvent_congr hshape] at hmrg
  have hheld : state.live.get? (firstSeq + before.length) = some previous := by
    rw [h.live, rowAt_split firstSeq before after previous previous, if_pos rfl, filter_some, if_pos hprev]
  have hsize := (size_withLive_of_mem hheld merged).trans h.size
  have hopen : next.bounded = false := (hbounded hsize).trans h.bounded
  obtain ⟨-, hsnaps, hlive⟩ := hkept hopen
  refine ⟨?_, hsnaps ▸ indexes_rewrite hshape h.indexed,
    htail ▸ h.tail.renew hprev hmrg, fun seq => ?_, hlive ▸ hsize, hopen⟩
  · rw [hseq, h.nextSeq]
    simp
  · rw [hlive, WindowState.get?_withLive, h.live, rowAt_split firstSeq before after previous merged]
    split_ifs
    · rw [filter_some, if_pos hmrg]
    · rfl

lemma Follows.appended (h : Follows policy firstSeq state rows) (hsettles : Settles rows event)
    (htail : next.tail = some ⟨state.nextSeq, event⟩) (hnextSeq : next.nextSeq = state.nextSeq + 1)
    (hkept : next.bounded = false → state.bounded = false ∧ next.snapshots = state.snapshots.adopt event
      state.nextSeq ∧ next.live = (state.withRow state.nextSeq event).live)
    (hsize : (state.withRow state.nextSeq event).live.size ≤ policy.maxLiveSnapshots)
    (hbounded : next.bounded = state.bounded) :
    Follows policy firstSeq next (rows ++ [event]) := by
  have hopen : next.bounded = false := hbounded.trans h.bounded
  obtain ⟨-, hsnaps, hlive⟩ := hkept hopen
  rw [h.nextSeq] at htail hlive hsnaps hsize
  refine ⟨?_, ?_, htail ▸ .row (.inl rfl), fun seq => ?_, hlive ▸ hsize, hopen⟩
  · rw [hnextSeq, h.nextSeq, length_append]
    rfl
  · obtain ⟨index, hidx, hknows⟩ := h.indexed
    refine ⟨index.adoptEvent event (firstSeq + rows.length), ?_, ?_⟩
    · rw [hsnaps, hidx]
      rfl
    · rw [zipIdx_append]
      refine hknows.adopt ?_ _
      rw [zipIdx_map_fst]
      exact hsettles
  · have hnew : rowAt firstSeq rows (firstSeq + rows.length) = none := by
      rw [rowAt, if_pos (by omega), Nat.add_sub_cancel_left, getElem?_length]
    rw [hlive, rowAt_append]
    unfold WindowState.withRow
    cases hsnap : isAgentTurnSnapshotEvent event with
    | true =>
      rw [if_pos rfl, WindowState.get?_withLive, h.live]
      split_ifs
      · rw [filter_some, if_pos hsnap]
      · rfl
    | false =>
      rw [if_neg Bool.false_ne_true, h.live]
      split_ifs with hseq
      · rw [hseq, hnew, filter_some, hsnap]
        rfl
      · rfl

lemma Follows.row_of_renews (h : Follows policy firstSeq state rows)
    (hrenews : WindowState.Renews state object seq previous merged) :
    ∃ before after, rows = before ++ previous :: after ∧ seq = firstSeq + before.length ∧
      isAgentTurnSnapshotEvent previous ∧ rowShape previous = rowShape merged := by
  obtain ⟨held, hheld, hsnap, hlive⟩ := h.live_of_slot hrenews.slot
  obtain rfl := some.inj (hrenews.live.symm.trans hlive)
  obtain ⟨entries, entries', hspl⟩ := append_of_mem (mem_zipIdx_iff_rowAt.2 hheld)
  obtain ⟨before, rest, rfl, -, hrest⟩ := zipIdx_eq_append_iff.1 hspl
  obtain ⟨row, after, rfl, hent, -⟩ := zipIdx_eq_cons_iff.1 hrest.symm
  cases hent
  obtain ⟨target, htarg⟩ : ∃ target, Snapshot previous target := by
    unfold isAgentTurnSnapshotEvent at hsnap
    cases hown : agentTurnEventSupersession previous with
    | snapshot target => exact ⟨target, supersession_eq_snapshot_iff.1 hown⟩
    | barrier | content =>
      rw [hown] at hsnap
      cases hsnap
  have hsupersedes := mergeSuperseded_eq_some_iff.1 hrenews.merged
  have hmrg := (hsupersedes.snapshot_of_previous htarg).2
  refine ⟨before, after, rfl, rfl, hsnap, Prod.ext ?_ hsupersedes.alias.symm⟩
  exact (supersession_eq_snapshot_iff.2 htarg).trans (supersession_eq_snapshot_iff.2 hmrg).symm

/-- **An event on the window is the event on the rows**, while no bound is reached. -/
theorem Follows.accept (hjoins : JoinsText retention)
    (hcoal : retention.coalesceText = policy.coalesceText)
    (h : Follows policy firstSeq state rows) (hin : state.withinBounds policy object) :
    Follows policy firstSeq (state.acceptEvent policy object)
        (liveRow retention rows object.event) ∧
      ∀ content, overlay state.dirty content = rowAt firstSeq rows →
        overlay (state.acceptEvent policy object).dirty content =
          rowAt firstSeq (liveRow retention rows object.event) := by
  obtain ⟨hby, hop, hjoin, hrow⟩ := WindowState.withinBounds_spec hin
  have hacc := WindowState.acceptance_acceptEvent policy state object
  unfold liveRow
  -- Where a join is over its bound there is none.
  have hseparate (hover : ∀ join ∈ WindowState.joined policy state object,
      WindowState.overOpBound policy join.1 join.2) :
      WindowState.joined policy state object = none := by
    refine eq_none_iff_forall_not_mem.2 fun join hmem => ?_
    have hfits := hjoin join hmem
    rw [hover join hmem] at hfits
    cases hfits
  cases hacc with
  | refused hover =>
    rcases hover with hover | hover
    · exact absurd hover hby
    · rw [hop] at hover
      cases hover
  | @joined seq fused hjoined hmarks htail hseq hlive hsnaps hbounded =>
    obtain ⟨init, last, rfl, rfl, hjoin, hlast, hfu⟩ := coalesceIntoLast_of_joined hjoins hcoal h.tail hjoined
    rw [hjoin, getD_some]
    exact ⟨h.joined hlast hfu htail hseq hlive hsnaps hbounded,
      fun content => overlay_marked hmarks (rowAt_split firstSeq init [] last fused)⟩
  | @renewed seq previous merged hjoined hrenews hmarks htail hseq hkept hbounded =>
    obtain ⟨before, after, rfl, rfl, hprev, hshape⟩ := h.row_of_renews hrenews
    rw [coalesceIntoLast_of_not_joined hjoins hcoal h.tail (hseparate hjoined),
      getD_none, placeRow,
      h.placement_iff.2 ⟨before, previous, after, merged, rfl, hrenews, rfl⟩, getD_some]
    exact ⟨h.renewed hshape hprev htail hseq hkept hbounded,
      fun content => overlay_marked hmarks (rowAt_split firstSeq before after previous merged)⟩
  | appended hjoined hrenews hmarks htail hseq hkept hbounded =>
    have hnone := hseparate hjoined
    obtain ⟨hfits, hsizes⟩ := hrow hnone
    have hnever : ∀ seq previous merged, ¬ WindowState.Renews state object seq previous merged := by
      intro seq previous merged hren
      have hfit := hfits seq previous merged hren
      rw [hrenews seq previous merged hren] at hfit
      cases hfit
    obtain ⟨hsize, hcard⟩ := hsizes hnever
    have hplc : ((placement rows object.event).2.bind fun target =>
        supersedeRow rows target (placement rows object.event).1) = none := by
      refine eq_none_iff_forall_ne_some.2 fun rows' hrows' => ?_
      obtain ⟨before, previous, after, merged, -, hren, -⟩ := h.placement_iff.1 hrows'
      exact hnever _ previous merged hren
    have hsettles := settles_placement rows object.event
    rw [coalesceIntoLast_of_not_joined hjoins hcoal h.tail hnone, getD_none, placeRow, hplc, getD_none]
    rw [← h.placed_event object] at hsettles ⊢
    refine ⟨h.appended hsettles htail hseq hkept hsize (hbounded ?_ hsize hcard), ?_⟩
    · intro seq hslot _
      obtain ⟨previous, -, -, hlive⟩ := h.live_of_slot hslot
      rw [hlive]
      rfl
    · rw [h.nextSeq] at hmarks
      exact fun content => overlay_marked hmarks (rowAt_append firstSeq rows _)

end Step

section Run

variable {firstSeq : ℕ} {foldDigest : δ → List AgentTurnEvent → δ} {given : ℕ → AgentTurnEvent}

variable {rows : List AgentTurnEvent}

lemma Follows.congr {state next : WindowState δ}
    (h : Follows policy firstSeq state rows) (hseq : next.nextSeq = state.nextSeq)
    (hsnaps : next.snapshots = state.snapshots) (htail : next.tail = state.tail)
    (hlive : next.live = state.live) (hbounded : next.bounded = state.bounded) :
    Follows policy firstSeq next rows := by
  refine ⟨hseq.trans h.nextSeq, hsnaps ▸ h.indexed, htail ▸ h.tail, fun seq => ?_,
    hlive ▸ h.size, hbounded.trans h.bounded⟩
  rw [hlive, h.live]

variable {state : WindowState δ}

lemma Follows.commitOp (h : Follows policy firstSeq state rows) (op) :
    Follows policy firstSeq (state.commitOp policy op) rows := by
  unfold WindowState.commitOp
  split
  · exact h
  · split_ifs
    · exact h
    · exact h.congr rfl rfl rfl rfl rfl

lemma Follows.commitBatch
    (h : Follows policy firstSeq state rows) (batch) :
    Follows policy firstSeq (state.commitBatch policy batch) rows := by
  have hfold : Follows policy firstSeq (batch.ops.foldl (WindowState.commitOp policy) state) rows := by
    induction batch.ops using List.reverseRecOn with
    | nil => exact h
    | append_singleton ops op ih =>
      rw [foldl_concat]
      exact ih.commitOp op
  unfold WindowState.commitBatch
  dsimp only
  split_ifs
  · exact hfold.congr rfl rfl rfl rfl rfl
  · exact hfold

lemma Follows.acceptAll (hjoins : JoinsText retention)
    (hcoal : retention.coalesceText = policy.coalesceText) (objects)
    (h : Follows policy firstSeq state rows)
    (hin : eventsWithinBounds policy state objects)
    (hcontent : overlay state.dirty content = rowAt firstSeq rows) :
    let next := objects.foldl (WindowState.acceptEvent policy) state
    let rows' := (objects.map (·.event)).foldl (liveRow retention) rows
    Follows policy firstSeq next rows' ∧ overlay next.dirty content = rowAt firstSeq rows' := by
  induction objects generalizing state rows with
  | nil => exact ⟨h, hcontent⟩
  | cons object objects ih =>
    rw [eventsWithinBounds, and_eq_true] at hin
    obtain ⟨hnext, hoverlay⟩ := h.accept hjoins hcoal hin.1
    exact ih hnext hin.2 (hoverlay content hcontent)

/-- A run whose window follows the rows, and whose rows hold these. -/
structure RunFollows (policy : AgentTurnWindowPolicy) (given : ℕ → AgentTurnEvent) (firstSeq : ℕ)
    (run : WindowRun δ) (rows : List AgentTurnEvent) : Prop where
  follows : Follows policy firstSeq run.window rows
  content : run.content = rowAt firstSeq rows
  invariant : RunInvariant given run

lemma RunFollows.overlay_eq {run : WindowRun δ} (h : RunFollows policy given firstSeq run rows) :
    overlay run.window.dirty run.content = rowAt firstSeq rows := by
  rw [← h.content]
  funext seq
  unfold overlay
  cases hdrt : run.window.dirty.get? seq with
  | none => rfl
  | some object =>
    rw [h.invariant.content seq object hdrt]
    rfl

lemma RunFollows.step (hjoins : JoinsText retention)
    (hcoal : retention.coalesceText = policy.coalesceText) {run}
    (h : RunFollows policy given firstSeq run rows)
    {action : WindowAction} (hin : run.withinBounds policy given action) :
    RunFollows policy given firstSeq (run.step policy foldDigest given action)
      ((acceptedStream given [action]).foldl (liveRow retention) rows) := by
  have hinv : RunInvariant given (run.step policy foldDigest given action) := h.invariant.step action
  cases action with
  | accept objects =>
    obtain ⟨hfollows, hoverlay⟩ :=
      h.follows.acceptAll hjoins hcoal (objects.map (givenObject given)) hin h.overlay_eq
    have hstr : acceptedStream given [.accept objects] = (objects.map (givenObject given)).map (·.event) := by
      rw [acceptedStream, List.flatMap_singleton, List.map_map]
      rfl
    rw [hstr]
    exact ⟨hfollows.congr rfl rfl rfl rfl rfl, hoverlay, hinv⟩
  | take maxOps maxBytes => exact ⟨h.follows, h.content, hinv⟩
  | clip seq => cases hin
  | commit number =>
    refine ⟨?_, ?_, hinv⟩
    · rw [WindowRun.step]
      split
      · exact h.follows
      · exact h.follows.commitBatch _
    · rw [WindowRun.step]
      split
      · exact h.content
      · exact h.content

lemma RunFollows.run (hjoins : JoinsText retention)
    (hcoal : retention.coalesceText = policy.coalesceText) (actions)
    {run} (h : RunFollows policy given firstSeq run rows)
    (hin : run.neverReaches policy foldDigest given actions) :
    RunFollows policy given firstSeq (actions.foldl (WindowRun.step policy foldDigest given) run)
      ((acceptedStream given actions).foldl (liveRow retention) rows) := by
  induction actions generalizing run rows with
  | nil => exact h
  | cons action actions ih =>
    rw [WindowRun.neverReaches, and_eq_true] at hin
    have hstr : acceptedStream given (action :: actions) =
        acceptedStream given [action] ++ acceptedStream given actions := by
      unfold acceptedStream
      rw [flatMap_cons, flatMap_singleton]
    rw [foldl_cons, hstr, foldl_append]
    exact ih (h.step hjoins hcoal hin.1) hin.2

lemma runFollows_start (policy) (given : ℕ → AgentTurnEvent)
    (firstSeq : ℕ) (digest : δ) :
    RunFollows policy given firstSeq (.start firstSeq digest) [] := by
  refine ⟨⟨rfl, ⟨.create, rfl, indexes_create⟩, .empty, fun seq => ?_, Nat.zero_le _, rfl⟩, ?_, ?_⟩
  · rw [rowAt]
    split_ifs
    · rfl
    · rfl
  · funext seq
    rw [rowAt]
    split_ifs
    · rfl
    · rfl
  · exact runInvariant_windowRun policy (fun digest _ => digest) given firstSeq digest []

end Run

lemma liveRow_congr {retention'}
    (h : retention.coalesceText = retention'.coalesceText) : liveRow retention = liveRow retention' := by
  unfold liveRow coalesceIntoLast
  rw [h]

lemma joinsText_of_coalesceText (h : retention.coalesceText = coalesceAgentTextEvents) :
    JoinsText retention where
  last hfu := joinsText_turnEventRetentionPolicy.last (h ▸ hfu)
  fused hfu := joinsText_turnEventRetentionPolicy.fused (h ▸ hfu)
  agentThreadId? hfu := joinsText_turnEventRetentionPolicy.agentThreadId? (h ▸ hfu)

/-- The limits of a policy are all at least `bound`. -/
structure LimitsFrom (bound : ℕ) (retention : AgentTurnEventRetentionPolicy) : Prop where
  maxEvents : bound ≤ retention.maxEvents
  maxBytes : bound ≤ retention.maxBytes
  maxSubagentThreads : bound ≤ retention.maxSubagentThreads

theorem exists_untruncated (eventBytes : AgentTurnEvent → ℤ) (stream) :
    ∃ bound, ∀ retention : AgentTurnEventRetentionPolicy, retention.eventBytes = eventBytes →
      retention.coalesceText = coalesceAgentTextEvents → LimitsFrom bound retention →
      (rowsFrom retention ⟨[], false⟩ stream).truncated = false := by
  induction stream using List.reverseRecOn with
  | nil => exact ⟨0, fun _ _ _ _ => rfl⟩
  | append_singleton stream event ih =>
    obtain ⟨bound, hbd⟩ := ih
    let rows := (stream ++ [event]).foldl (liveRow turnEventRetentionPolicy) []
    refine ⟨max bound (max (eventBytes event).toNat (max rows.length
      (max (rows.map eventBytes).sum.toNat (agentThreadIds rows).dedup.length))), ?_⟩
    rintro retention rfl hcoal ⟨hmaxEvents, hmaxBytes, hmaxThreads⟩
    have hfr := hbd retention rfl hcoal ⟨by omega, by omega, by omega⟩
    have hevs := (rowsFrom_of_not_truncated hfr).1
    have hrows : liveRow retention (rowsFrom retention ⟨[], false⟩ stream).events event = rows := by
      rw [hevs, liveRow_congr (hcoal.trans (rfl : _ = turnEventRetentionPolicy.coalesceText))]
      exact (foldl_concat ..).symm
    have hfits : overLimits retention rows = false := overLimits_eq_false_iff.2 ⟨by omega, by omega, by omega⟩
    rw [rowsFrom_append]
    change (acceptRows retention (liveRow retention) _ event).truncated = false
    rw [acceptRows, if_neg (by omega)]
    rw [hfr, hrows, hfits]
    rfl

/-- **The window agrees with live retention**: while no bound is reached, its rows are what live
retention keeps of the stream in one call. -/
theorem windowRun_retains (policy : AgentTurnWindowPolicy)
    (foldDigest : δ → List AgentTurnEvent → δ) (given : ℕ → AgentTurnEvent) (firstSeq : ℕ)
    (digest : δ) (actions : List WindowAction)
    (hcoal : policy.coalesceText = coalesceAgentTextEvents)
    (hwithin : (WindowRun.start firstSeq digest).neverReaches policy foldDigest given actions) :
    let run := windowRun policy foldDigest given firstSeq digest actions
    let stream := acceptedStream given actions
    (∀ retention : AgentTurnEventRetentionPolicy, retention.coalesceText = policy.coalesceText →
      (retainAgentTurnEvents retention [] stream).truncated = false →
      (List.range' firstSeq (run.window.nextSeq - firstSeq)).map run.content =
        (retainAgentTurnEvents retention [] stream).events.map some) ∧
    ∀ eventBytes, ∃ bound, ∀ retention : AgentTurnEventRetentionPolicy,
      retention.eventBytes = eventBytes → retention.coalesceText = policy.coalesceText →
      LimitsFrom bound retention → (retainAgentTurnEvents retention [] stream).truncated = false := by
  intro run stream
  refine ⟨fun retention hretn huntruncated => ?_, fun eventBytes => ?_⟩
  · have hjoins := joinsText_of_coalesceText (hretn.trans hcoal)
    obtain ⟨hfollows, hcontent, -⟩ := (runFollows_start policy given firstSeq digest).run
      hjoins hretn actions hwithin
    obtain ⟨-, hevs, -⟩ := retain_of_not_truncated hjoins settled_nil huntruncated
    have hlen := hfollows.nextSeq
    change run.window.nextSeq = _ at hlen
    change run.content = _ at hcontent
    rw [hevs, hlen, hcontent, Nat.add_sub_cancel_left]
    refine ext_getElem? fun i => ?_
    rw [getElem?_map, getElem?_map]
    by_cases hi : i < (stream.foldl (liveRow retention) []).length
    · rw [getElem?_range' (by exact hi), map_some, rowAt, if_pos (by omega),
        Nat.one_mul, Nat.add_sub_cancel_left]
      rw [getElem?_eq_getElem hi]
      rfl
    · rw [getElem?_eq_none (by simpa using hi), getElem?_eq_none (by simpa using hi)]
      rfl
  · obtain ⟨bound, hbound⟩ := exists_untruncated eventBytes stream
    refine ⟨bound, fun retention heventBytes hretn hlimits => ?_⟩
    have huntruncated := hbound retention heventBytes (hretn.trans hcoal) hlimits
    obtain ⟨-, hkeeps⟩ := rowsFrom_of_not_truncated huntruncated
    have hjoins := joinsText_of_coalesceText (hretn.trans hcoal)
    rw [(retainAgentTurnEvents_eq_rowsFrom hjoins settled_nil hkeeps).1]
    exact huntruncated

/-- Two texts that join and a usage of a child. -/
def sampleEvent (number : ℕ) : AgentTurnEvent :=
  if number < 2 then sampleText number else usageOf "child"

/-- A joined text, a renewed usage and a text after it, handed out in between. -/
theorem windowRun_retains_of_renewed :
    let run := windowRun sampleWindowPolicy (fun _ _ => ()) sampleEvent 1 ()
      [.accept [0, 1, 2], .take 16 4096, .accept [2, 0], .commit 0]
    (List.range' 1 (run.window.nextSeq - 1)).map run.content =
      (retainAgentTurnEvents turnEventRetentionPolicy []
        [sampleText 0, sampleText 1, usageOf "child", usageOf "child", sampleText 0]).events.map some :=
  (windowRun_retains sampleWindowPolicy (fun _ _ => ()) sampleEvent 1 ()
    [.accept [0, 1, 2], .take 16 4096, .accept [2, 0], .commit 0] rfl (by decide +kernel)).1
    turnEventRetentionPolicy rfl (by decide +kernel)

end CodevoEditor.TurnLog
