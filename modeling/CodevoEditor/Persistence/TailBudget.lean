/-
# A tail within its budget

`TailSelection` counts what it holds by differences: the events, their bytes and, for each child
thread, its events.
-/

import CodevoEditor.Persistence.TailCap
import CodevoEditor.Window.Counts

namespace CodevoEditor.Persistence

open Js AgentEvents Window List Option OrderedMap Bool

variable {events : List AgentTurnEvent} {budget : AgentTurnTailBudget} {selection : TailSelection}

namespace TailSelection

/-- The child threads of events, as often as they occur. -/
def threadsOf (events : List AgentTurnEvent) (indices : List ℕ) : List JsString :=
  indices.filterMap (threadAt events)

def bytesOf (events : List AgentTurnEvent) (budget : AgentTurnTailBudget) (indices : List ℕ) : ℕ :=
  (indices.map (bytesAt events budget)).sum

/-- The events at some indices are within the budget. -/
def IndicesFit (events : List AgentTurnEvent) (budget : AgentTurnTailBudget) (indices : List ℕ) : Prop :=
  indices.length ≤ budget.maxEvents ∧ (threadsOf events indices).dedup.length ≤ maxSubagentThreadsPerTurn ∧
    budget.holds (bytesOf events budget indices)

/-- The counts are those of the events that are kept, which are within the budget. -/
structure Selected (events : List AgentTurnEvent) (budget : AgentTurnTailBudget)
    (selection : TailSelection) : Prop where
  nodup : selection.kept.Nodup
  inRange : ∀ index ∈ selection.kept, index < events.length
  bytes_eq : selection.bytes = bytesOf events budget selection.kept
  threads_eq : ∀ thread, selection.threads.get? thread =
    if (threadsOf events selection.kept).count thread = 0 then none
    else some ((threadsOf events selection.kept).count thread)
  fits : IndicesFit events budget selection.kept

lemma threadsOf_append (events) (indices indices' : List ℕ) :
    threadsOf events (indices ++ indices') = threadsOf events indices ++ threadsOf events indices' :=
  filterMap_append

lemma mem_keys_threads
    (h : ∀ thread, selection.threads.get? thread =
      if (threadsOf events selection.kept).count thread = 0 then none
      else some ((threadsOf events selection.kept).count thread)) {thread} :
    thread ∈ selection.threads.keys ↔ thread ∈ threadsOf events selection.kept := by
  rw [mem_keys_iff, h, ← count_pos_iff]
  split
  case isTrue hzero => simp [hzero]
  case isFalse hpos => simp [Nat.pos_iff_ne_zero, hpos]

lemma length_dedup_append (old new : List JsString) :
    (old ++ new).dedup.length = old.dedup.length + (new.filter fun thread => decide (thread ∉ old)).dedup.length := by
  rw [← length_append]
  refine ((perm_ext_iff_of_nodup (nodup_dedup _) ?_).2 fun thread => ?_).length_eq
  · refine (nodup_dedup _).append (nodup_dedup _) fun thread hold hnew => ?_
    rw [mem_dedup] at hold
    rw [mem_dedup, mem_filter] at hnew
    exact of_decide_eq_true hnew.2 hold
  · rw [mem_dedup, mem_append, mem_append, mem_dedup, mem_dedup, mem_filter,
      decide_eq_true_iff]
    by_cases hold : thread ∈ old
    · exact iff_of_true (.inl hold) (.inl hold)
    · rw [or_iff_right hold, or_iff_right hold, and_iff_left hold]

lemma size_threads (h : Selected events budget selection) :
    selection.threads.entries.length = (threadsOf events selection.kept).dedup.length := by
  show selection.threads.size = _
  rw [← length_keys]
  refine ((perm_ext_iff_of_nodup selection.threads.nodup (nodup_dedup _)).2 fun thread => ?_).length_eq
  rw [mem_dedup]
  exact mem_keys_threads h.threads_eq

lemma threadsFit_iff (h : Selected events budget selection) (added : List ℕ) :
    selection.threadsFit events added ↔
      (threadsOf events (selection.kept ++ added)).dedup.length ≤ maxSubagentThreadsPerTurn := by
  have hnew : (threadsOf events added).filter (fun thread => (selection.threads.get? thread).isNone) =
      (threadsOf events added).filter fun thread => decide (thread ∉ threadsOf events selection.kept) := by
    refine filter_congr fun thread _ => ?_
    rw [Bool.eq_iff_iff, decide_eq_true_iff, ← mem_keys_threads h.threads_eq, OrderedMap.mem_keys_iff,
      isNone_iff_eq_none, not_isSome_iff_eq_none]
  unfold threadsFit
  rw [threadsOf_append, length_dedup_append, ← hnew, ← size_threads h, decide_eq_true_iff]
  rfl

/-! ### Taking and letting go -/

lemma kept_adopt (selection : TailSelection) (index : ℕ) :
    (selection.adopt events index).kept = selection.kept ++ [index] := by
  unfold adopt
  cases threadAt events index with
  | none => rfl
  | some thread => rfl

lemma bytes_adopt (selection : TailSelection) (index : ℕ) :
    (selection.adopt events index).bytes = selection.bytes := by
  unfold adopt
  cases threadAt events index with
  | none => rfl
  | some thread => rfl

/-- The threads are those of the events that are kept. -/
def ThreadsCounted (events : List AgentTurnEvent) (selection : TailSelection) : Prop :=
  ∀ thread, selection.threads.get? thread =
    if (threadsOf events selection.kept).count thread = 0 then none
    else some ((threadsOf events selection.kept).count thread)

lemma getD_threads (h : ThreadsCounted events selection) (thread : JsString) :
    (selection.threads.get? thread).getD 0 = (threadsOf events selection.kept).count thread := by
  rw [h]
  split
  case isTrue hzero => exact hzero.symm
  case isFalse => rfl

lemma threadsCounted_adopt (h : ThreadsCounted events selection) (index : ℕ) :
    ThreadsCounted events (selection.adopt events index) := by
  intro thread
  have hcnt : (threadsOf events (selection.kept ++ [index])).count thread =
      (threadsOf events selection.kept).count thread + (threadsOf events [index]).count thread := by
    rw [threadsOf_append, count_append]
  rw [kept_adopt, hcnt]
  unfold adopt
  cases hidx : threadAt events index with
  | none =>
    have hnone : threadsOf events [index] = [] := filterMap_cons_none hidx
    rw [hnone, count_nil, Nat.add_zero]
    exact h thread
  | some own =>
    have hone : threadsOf events [index] = [own] := filterMap_cons_some hidx
    rw [hone, get?_set, getD_threads h]
    by_cases heq : thread = own
    · rw [if_pos heq, heq, count_cons_self, count_nil, if_neg (Nat.succ_ne_zero _)]
    · rw [if_neg heq, count_cons_of_ne (.symm heq), count_nil, Nat.add_zero]
      exact h thread

lemma foldl_adopt (h : ThreadsCounted events selection) (added : List ℕ) :
    (added.foldl (adopt events) selection).kept = selection.kept ++ added ∧
      (added.foldl (adopt events) selection).bytes = selection.bytes ∧
      ThreadsCounted events (added.foldl (adopt events) selection) := by
  induction added generalizing selection with
  | nil => exact ⟨(append_nil _).symm, rfl, h⟩
  | cons index added ih =>
    obtain ⟨hkept, hby, hcounted⟩ := ih (threadsCounted_adopt h index)
    rw [kept_adopt, append_assoc, singleton_append] at hkept
    rw [bytes_adopt] at hby
    exact ⟨hkept, hby, hcounted⟩

/-- Those of some indices that are not kept. -/
def missing (selection : TailSelection) (indices : List ℕ) : List ℕ :=
  indices.dedup.filter (· ∉ selection.kept)

theorem take_spec (h : Selected events budget selection) {indices}
    (hrng : ∀ index ∈ indices, index < events.length) :
    (IndicesFit events budget (selection.kept ++ selection.missing indices) ∧
        (selection.take events budget indices).2 ∧
        (selection.take events budget indices).1.kept = selection.kept ++ selection.missing indices ∧
        Selected events budget (selection.take events budget indices).1) ∨
      ¬ IndicesFit events budget (selection.kept ++ selection.missing indices) ∧
        selection.take events budget indices = (selection, false) := by
  have hadded : selection.missing indices = indices.dedup.filter (· ∉ selection.kept) := rfl
  have hths := threadsFit_iff h (selection.missing indices)
  have hby : bytesOf events budget (selection.kept ++ selection.missing indices) =
      selection.bytes + ((selection.missing indices).map (bytesAt events budget)).sum := by
    rw [bytesOf, map_append, sum_append, h.bytes_eq]
    rfl
  have hlen : (selection.kept ++ selection.missing indices).length =
      selection.kept.length + (selection.missing indices).length := length_append
  unfold IndicesFit
  rw [hby, hlen]
  unfold take
  rw [← hadded]
  dsimp only
  split
  case isTrue hmany => exact .inr ⟨fun hfits => by omega, rfl⟩
  case isFalse hfew =>
  split
  case isTrue hheavy =>
    rw [not_eq_true'] at hheavy
    refine .inr ⟨fun hfits => ?_, rfl⟩
    rw [hheavy] at hfits
    cases hfits.2.2
  case isFalse hlight =>
  rw [not_eq_true', not_eq_false] at hlight
  split
  case isTrue hcrowded =>
    rw [not_eq_true', eq_false_iff, ne_eq, hths] at hcrowded
    exact .inr ⟨fun hfits => hcrowded hfits.2.1, rfl⟩
  case isFalse hcalm =>
    rw [not_eq_true', not_eq_false, hths] at hcalm
    obtain ⟨hkept, hfoldBytes, hcounted⟩ := foldl_adopt h.threads_eq (selection.missing indices)
    refine .inl ⟨⟨by omega, hcalm, hlight⟩, rfl, hkept, ?_, ?_, ?_, hcounted, ?_⟩
    · rw [hkept]
      refine h.nodup.append ((nodup_dedup _).filter _) fun index hold hnew => ?_
      exact of_decide_eq_true (mem_filter.1 hnew).2 hold
    · rw [hkept]
      intro index hmem
      rcases mem_append.1 hmem with hold | hnew
      · exact h.inRange index hold
      · exact hrng index (mem_dedup.1 (mem_filter.1 hnew).1)
    · rw [hkept, hby, hfoldBytes]
    · rw [hkept]
      refine ⟨by rw [hlen]; omega, hcalm, ?_⟩
      rw [hby]
      exact hlight

/-- Nothing that is kept is lost. -/
structure Grows (events : List AgentTurnEvent) (budget : AgentTurnTailBudget)
    (selection next : TailSelection) : Prop where
  selected : Selected events budget next
  kept : selection.kept ⊆ next.kept

lemma Grows.refl (h : Selected events budget selection) : Grows events budget selection selection :=
  ⟨h, fun _ => id⟩

lemma Grows.trans {next last} (h : Grows events budget selection next)
    (h' : Grows events budget next last) : Grows events budget selection last :=
  ⟨h'.selected, fun _ hmem => h'.kept (h.kept hmem)⟩

lemma grows_take (h : Selected events budget selection) {indices}
    (hrng : ∀ index ∈ indices, index < events.length) :
    Grows events budget selection (selection.take events budget indices).1 := by
  rcases take_spec h hrng with ⟨-, -, hkept, hsel⟩ | ⟨-, hsame⟩
  · exact ⟨hsel, fun index hmem => hkept ▸ mem_append_left _ hmem⟩
  · rw [hsame]
    exact .refl h

variable {indices indices' : List ℕ}

lemma threadsOf_perm (h : indices.Perm indices') :
    (threadsOf events indices).Perm (threadsOf events indices') := h.filterMap _

lemma bytesOf_perm (h : indices.Perm indices') :
    bytesOf events budget indices = bytesOf events budget indices' := (h.map _).sum_nat

lemma IndicesFit.subperm (h : IndicesFit events budget indices')
    (hsub : indices.Subperm indices') : IndicesFit events budget indices := by
  obtain ⟨hlen, hths, hby⟩ := h
  obtain ⟨part, hpart, hsublist⟩ := id hsub
  obtain ⟨others, hwh⟩ := hsublist.exists_perm_append
  have hperm : indices'.Perm (indices ++ others) := hwh.trans (hpart.append_right others)
  refine ⟨hsub.length_le.trans hlen, ?_, ?_⟩
  · refine le_trans (Subperm.length_le ?_) hths
    refine (nodup_dedup _).subperm fun thread hmem => ?_
    rw [mem_dedup] at hmem ⊢
    rw [(threadsOf_perm hperm).mem_iff, threadsOf_append]
    exact mem_append_left _ hmem
  · rw [bytesOf_perm hperm, bytesOf, map_append, sum_append] at hby
    unfold AgentTurnTailBudget.holds at hby ⊢
    cases hmax : budget.maxBytes with
    | none => rfl
    | some maxBytes =>
      rw [hmax, all_some, decide_eq_true_iff] at hby
      rw [all_some, decide_eq_true_iff]
      exact (Nat.le_add_right _ _).trans hby

lemma release_spec (h : Selected events budget selection) {index} (hmem : index ∈ selection.kept) :
    (selection.release events budget index).kept = selection.kept.filter (· ≠ index) ∧
      Selected events budget (selection.release events budget index) := by
  have hperm : selection.kept.Perm (index :: selection.kept.filter (· ≠ index)) := by
    refine (perm_ext_iff_of_nodup h.nodup (nodup_cons.2 ⟨?_, h.nodup.filter _⟩)).2 fun other => ?_
    · exact fun hin => of_decide_eq_true (mem_filter.1 hin).2 rfl
    · rw [mem_cons, mem_filter, decide_eq_true_iff]
      by_cases heq : other = index
      · exact iff_of_true (heq ▸ hmem) (.inl heq)
      · rw [or_iff_right heq, and_iff_left heq]
  have hcnt thread : (threadsOf events selection.kept).count thread =
      (threadsOf events (index :: selection.kept.filter (· ≠ index))).count thread :=
    (threadsOf_perm hperm).count_eq thread
  have hkept : (selection.release events budget index).kept = selection.kept.filter (· ≠ index) := by
    unfold release
    rw [if_neg (not_not.2 hmem)]
    cases threadAt events index with
    | none => rfl
    | some thread =>
      dsimp only
      split <;> rfl
  have hby : (selection.release events budget index).bytes = selection.bytes - bytesAt events budget index := by
    unfold release
    rw [if_neg (not_not.2 hmem)]
    cases threadAt events index with
    | none => rfl
    | some thread =>
      dsimp only
      split <;> rfl
  refine ⟨hkept, ?_, ?_, ?_, ?_, ?_⟩
  · rw [hkept]
    exact h.nodup.filter _
  · rw [hkept]
    exact fun other hoth => h.inRange other (mem_of_mem_filter hoth)
  · rw [hkept, hby, h.bytes_eq, bytesOf_perm hperm, bytesOf, map_cons, sum_cons,
      Nat.add_sub_cancel_left]
    rfl
  · rw [hkept]
    intro thread
    unfold release
    rw [if_neg (not_not.2 hmem)]
    cases hidx : threadAt events index with
    | none =>
      have hnone : threadsOf events (index :: selection.kept.filter (· ≠ index)) =
          threadsOf events (selection.kept.filter (· ≠ index)) := filterMap_cons_none hidx
      rw [← hnone, ← hcnt]
      exact h.threads_eq thread
    | some own =>
      have hone : threadsOf events (index :: selection.kept.filter (· ≠ index)) =
          own :: threadsOf events (selection.kept.filter (· ≠ index)) := filterMap_cons_some hidx
      have hown := hcnt own
      rw [hone, count_cons_self] at hown
      dsimp only
      rw [getD_threads h.threads_eq, hown, Nat.add_sub_cancel]
      have hoth (hne : thread ≠ own) : selection.threads.get? thread =
          if (threadsOf events (selection.kept.filter (· ≠ index))).count thread = 0 then none
          else some ((threadsOf events (selection.kept.filter (· ≠ index))).count thread) := by
        rw [h.threads_eq, hcnt, hone, count_cons_of_ne (.symm hne)]
      split
      case isTrue hpos =>
        rw [get?_set]
        by_cases heq : thread = own
        · rw [if_pos heq, heq, if_neg (by omega)]
        · rw [if_neg heq]
          exact hoth heq
      case isFalse hzero =>
        rw [get?_delete]
        by_cases heq : thread = own
        · rw [if_pos heq, heq, if_pos (by omega)]
        · rw [if_neg heq]
          exact hoth heq
  · rw [hkept]
    exact h.fits.subperm (filter_sublist.subperm)

lemma selected_new : Selected events budget {} := by
  refine ⟨nodup_nil, nofun, rfl, fun thread => rfl, Nat.zero_le _, Nat.zero_le _, ?_⟩
  unfold AgentTurnTailBudget.holds
  cases budget.maxBytes with
  | none => rfl
  | some maxBytes => exact decide_eq_true (Nat.zero_le maxBytes)

lemma mem_take (h : Selected events budget selection) {index} (hrng : index < events.length)
    (hfits : IndicesFit events budget (selection.kept ++ [index])) :
    index ∈ (selection.take events budget [index]).1.kept := by
  have hranges : ∀ other ∈ [index], other < events.length := fun other hoth => by
    rw [mem_singleton.1 hoth]
    exact hrng
  have hsub : (selection.kept ++ selection.missing [index]).Subperm (selection.kept ++ [index]) := by
    exact (filter_sublist.append_left selection.kept).subperm
  rcases take_spec h hranges with ⟨-, -, hkept, -⟩ | ⟨hnot, -⟩
  · rw [hkept]
    by_cases hmem : index ∈ selection.kept
    · exact mem_append_left _ hmem
    · refine mem_append_right _ (mem_filter.2 ⟨?_, decide_eq_true hmem⟩)
      exact mem_dedup.2 (mem_singleton_self index)
  · exact absurd (hfits.subperm hsub) hnot

end TailSelection

lemma find?_reverse_range (test : ℕ → Bool) (n index : ℕ) :
    (List.range n).reverse.find? test = some index ↔
      index < n ∧ test index ∧ ∀ later, index < later → later < n → test later = false := by
  induction n with
  | zero => exact ⟨nofun, fun h => absurd h.1 (Nat.not_lt_zero _)⟩
  | succ n ih =>
    rw [range_succ, reverse_append, reverse_singleton, singleton_append, find?_cons]
    cases htest : test n with
    | true =>
      constructor
      · intro h
        cases h
        exact ⟨Nat.lt_succ_self _, htest, fun later hlat hlt => by omega⟩
      · rintro ⟨hlt, -, hlat⟩
        by_cases heq : index = n
        · rw [heq]
        · rw [hlat n (by omega) (Nat.lt_succ_self _)] at htest
          cases htest
    | false =>
      rw [ih]
      constructor
      · rintro ⟨hlt, hget, hlat⟩
        refine ⟨by omega, hget, fun later hlate hbd => ?_⟩
        by_cases heq : later = n
        · rw [heq, htest]
        · exact hlat later hlate (by omega)
      · rintro ⟨hlt, hget, hlat⟩
        have hne : index ≠ n := by
          rintro rfl
          rw [htest] at hget
          cases hget
        exact ⟨by omega, hget, fun later hlate hbd => hlat later hlate (by omega)⟩

lemma lastIndexWhere_eq_some_iff {test : AgentTurnEvent → Bool} {index} :
    lastIndexWhere events test = some index ↔
      (∃ event, events[index]? = some event ∧ test event) ∧
        ∀ later event, index < later → events[later]? = some event → test event = false := by
  unfold lastIndexWhere
  rw [find?_reverse_range]
  constructor
  · rintro ⟨hlt, hfound, hlat⟩
    refine ⟨⟨events[index], getElem?_eq_getElem hlt, ?_⟩, fun later event hlate hget => ?_⟩
    · rw [getElem?_eq_getElem hlt] at hfound
      exact hfound
    · obtain ⟨hbd, -⟩ := List.getElem?_eq_some_iff.1 hget
      have hnone := hlat later hlate hbd
      rw [hget] at hnone
      exact hnone
  · rintro ⟨⟨event, hget, htest⟩, hlat⟩
    obtain ⟨hlt, -⟩ := List.getElem?_eq_some_iff.1 hget
    refine ⟨hlt, by rw [hget]; exact htest, fun later hlate hbd => ?_⟩
    rw [getElem?_eq_getElem hbd]
    exact hlat later _ hlate (getElem?_eq_getElem hbd)

variable {α : Type} (keep : ℕ → Bool)

variable (start : ℕ) (values : List α)

lemma keepFrom_concat (value : α) :
    keepFrom keep start (values ++ [value]) =
      keepFrom keep start values ++ if keep (start + values.length) then [value] else [] := by
  induction values generalizing start with
  | nil => rfl
  | cons first values ih =>
    have hidx : start + 1 + values.length = start + (values.length + 1) := by omega
    rw [cons_append, keepFrom, keepFrom, ih, length_cons, hidx]
    split
    · rfl
    · rfl

lemma filterIndex_eq : filterIndex keep values = ((List.range values.length).filter keep).filterMap (values[·]?) := by
  induction values using List.reverseRecOn with
  | nil => rfl
  | append_singleton values value ih =>
    have hpre : ((List.range values.length).filter keep).filterMap (fun index => (values ++ [value])[index]?)
        = ((List.range values.length).filter keep).filterMap fun index => values[index]? := by
      refine filterMap_congr fun index hmem => ?_
      exact getElem?_append_left (mem_range.1 (mem_of_mem_filter hmem))
    unfold filterIndex at ih ⊢
    rw [keepFrom_concat, ih, length_append, length_singleton, range_succ, filter_append,
      filterMap_append, hpre, Nat.zero_add]
    cases hkeep : keep values.length with
    | true =>
      have hlast : (values ++ [value])[values.length]? = some value := getElem?_concat_length
      rw [if_pos rfl, filter_cons_of_pos hkeep, filter_nil, filterMap_cons, hlast]
      rfl
    | false =>
      rw [if_neg Bool.false_ne_true, List.filter_cons_of_neg (Bool.eq_false_iff.1 hkeep)]
      rfl

lemma keepFrom_sublist : (keepFrom keep start values).Sublist values := by
  induction values generalizing start with
  | nil => exact .slnil
  | cons value values ih =>
    rw [keepFrom]
    split
    · exact (ih _).cons_cons value
    · exact (ih _).cons value

lemma filterIndex_sublist :
    (filterIndex keep values).Sublist values := keepFrom_sublist keep 0 values

lemma wouldFuse_iff {previous next} :
    wouldFuse events previous next ↔ previous + 1 < next ∧
      ∃ last event fused, events[previous]? = some last ∧ events[next]? = some event ∧
        coalesceAgentTextEvents last event = some fused := by
  unfold wouldFuse
  split
  case isTrue hnear => exact ⟨nofun, fun h => by omega⟩
  case isFalse hfar =>
    cases hlast : events[previous]? with
    | none => exact ⟨nofun, fun ⟨_, _, _, _, hsome, _⟩ => nomatch hsome⟩
    | some last =>
      cases hev : events[next]? with
      | none => exact ⟨nofun, fun ⟨_, _, _, _, _, hsome, _⟩ => nomatch hsome⟩
      | some event =>
        rw [isSome_iff_exists]
        constructor
        · rintro ⟨fused, hfu⟩
          exact ⟨by omega, last, event, fused, rfl, rfl, hfu⟩
        · rintro ⟨-, _, _, fused, hlast', hevent', hfu⟩
          rw [some.inj hlast', some.inj hevent']
          exact ⟨fused, hfu⟩

open TailSelection

lemma grows_takeNewestFirst (selected : AgentTurnEvent → Bool) {count} (hcnt : count ≤ events.length)
    (h : Selected events budget selection) :
    Grows events budget selection (takeNewestFirst events budget selected count selection) := by
  induction count generalizing selection with
  | zero => exact .refl h
  | succ index ih =>
    rw [takeNewestFirst]
    split
    · exact .refl h
    split
    · have hrng : ∀ other ∈ [index], other < events.length := fun other hoth => by
        rw [mem_singleton.1 hoth]
        exact hcnt
      have htkn := grows_take h hrng
      exact htkn.trans (ih (Nat.le_of_succ_le hcnt) htkn.selected)
    · exact ih (Nat.le_of_succ_le hcnt) h

/-- The events that a reply is taken with. -/
def replyUnit (events : List AgentTurnEvent) (index : ℕ) : Option ℕ → List ℕ
  | some next => if wouldFuse events index next then [index, next - 1] else [index]
  | none => [index]

lemma lt_of_mem_replyUnit {index other} {nearest} (hidx : index < events.length)
    (h : other ∈ replyUnit events index nearest) : other < events.length := by
  cases nearest with
  | none =>
    rw [mem_singleton.1 h]
    exact hidx
  | some next =>
    rw [replyUnit] at h
    split at h
    case isTrue hfuse =>
      obtain ⟨hlt, -, event, -, -, hget, -⟩ := wouldFuse_iff.1 hfuse
      obtain ⟨hnext, -⟩ := List.getElem?_eq_some_iff.1 hget
      rcases mem_cons.1 h with rfl | h
      · exact hidx
      · rw [mem_singleton.1 h]
        omega
    case isFalse =>
      rw [mem_singleton.1 h]
      exact hidx

variable (index : ℕ) (nearest : Option ℕ)

lemma takeRepliesNewestFirst_succ (selection) :
    takeRepliesNewestFirst events budget (index + 1) nearest selection =
      if index ∈ selection.kept then takeRepliesNewestFirst events budget index (some index) selection
      else if !events[index]?.any isAgentMainReply then
        takeRepliesNewestFirst events budget index nearest selection
      else
        match selection.take events budget (replyUnit events index nearest) with
        | (selection, false) => selection
        | (selection, true) => takeRepliesNewestFirst events budget index (some index) selection := rfl

lemma takeRepliesNewestFirst_cases (selection) :
    (∃ nearest', takeRepliesNewestFirst events budget (index + 1) nearest selection =
        takeRepliesNewestFirst events budget index nearest' selection) ∨
      takeRepliesNewestFirst events budget (index + 1) nearest selection =
          (selection.take events budget (replyUnit events index nearest)).1 ∨
      takeRepliesNewestFirst events budget (index + 1) nearest selection =
          takeRepliesNewestFirst events budget index (some index)
            (selection.take events budget (replyUnit events index nearest)).1 := by
  rw [takeRepliesNewestFirst_succ]
  split
  · exact .inl ⟨_, rfl⟩
  split
  · exact .inl ⟨_, rfl⟩
  right
  rcases selection.take events budget (replyUnit events index nearest) with ⟨next, _ | _⟩
  · exact .inl rfl
  · exact .inr rfl

lemma grows_takeRepliesNewestFirst {count} (hcnt : count ≤ events.length) (nearest)
    (h : Selected events budget selection) :
    Grows events budget selection (takeRepliesNewestFirst events budget count nearest selection) := by
  induction count generalizing selection nearest with
  | zero => exact .refl h
  | succ index ih =>
    have htkn := grows_take h fun other => @lt_of_mem_replyUnit _ _ other nearest hcnt
    rcases takeRepliesNewestFirst_cases index nearest selection with ⟨nearest', hsame⟩ | hlast | hmore
    · rw [hsame]
      exact ih (Nat.le_of_succ_le hcnt) nearest' h
    · rw [hlast]
      exact htkn
    · rw [hmore]
      exact htkn.trans (ih (Nat.le_of_succ_le hcnt) _ htkn.selected)

def startedSelection (events : List AgentTurnEvent) (budget : AgentTurnTailBudget) : TailSelection :=
  (lastIndexWhere events isResult).elim {} fun index => (({} : TailSelection).take events budget [index]).1

def answeredSelection (events : List AgentTurnEvent) (budget : AgentTurnTailBudget) : TailSelection :=
  (lastIndexWhere events isAgentMainReply).elim (startedSelection events budget) fun index =>
    ((startedSelection events budget).take events budget [index]).1

/-- What is taken before the boundaries are looked at. -/
def filledSelection (events : List AgentTurnEvent) (budget : AgentTurnTailBudget) : TailSelection :=
  let asked := takeNewestFirst events budget (·.isUserMessage) events.length (answeredSelection events budget)
  let replied := takeRepliesNewestFirst events budget events.length none asked
  takeNewestFirst events budget (fun _ => true) events.length replied

lemma selectAgentTurnTail_eq (events) (budget) :
    selectAgentTurnTail events budget = (keepTextBoundaries events budget (filledSelection events budget)).kept := rfl

instance (indices : List ℕ) : Decidable (IndicesFit events budget indices) :=
  inferInstanceAs (Decidable (_ ∧ _ ∧ _))

/-- The closing result, if there is one and it fits. -/
def closingKept (events : List AgentTurnEvent) (budget : AgentTurnTailBudget) : List ℕ :=
  (lastIndexWhere events isResult).toList.filter fun index => IndicesFit events budget [index]

lemma lt_of_lastIndexWhere {test : AgentTurnEvent → Bool} {index}
    (h : lastIndexWhere events test = some index) : index < events.length := by
  obtain ⟨⟨event, hget, -⟩, -⟩ := lastIndexWhere_eq_some_iff.1 h
  exact (List.getElem?_eq_some_iff.1 hget).1

lemma started_spec (events) (budget) :
    Selected events budget (startedSelection events budget) ∧
      (startedSelection events budget).kept = closingKept events budget := by
  unfold closingKept startedSelection
  cases hcls : lastIndexWhere events isResult with
  | none => exact ⟨selected_new, rfl⟩
  | some closing =>
    have hranges : ∀ other ∈ [closing], other < events.length := fun other hoth => by
      rw [mem_singleton.1 hoth]
      exact lt_of_lastIndexWhere hcls
    have hmiss : ({} : TailSelection).missing [closing] = [closing] := by
      rfl
    have htkn := @take_spec _ budget _ selected_new _ hranges
    rw [elim_some, toList_some]
    rcases htkn with ⟨hfits, -, hkept, hsel⟩ | ⟨hnot, hsame⟩
    · refine ⟨hsel, hkept.trans ?_⟩
      refine (filter_eq_self.2 fun index hmem => ?_).symm
      rw [mem_singleton.1 hmem]
      exact decide_eq_true hfits
    · rw [hsame]
      refine ⟨selected_new, (filter_eq_nil_iff.2 fun index hmem hfits => ?_).symm⟩
      rw [mem_singleton.1 hmem] at hfits
      exact hnot (of_decide_eq_true hfits)

lemma answered_spec (events) (budget) :
    Grows events budget (startedSelection events budget) (answeredSelection events budget) ∧
      ∀ answer, lastIndexWhere events isAgentMainReply = some answer →
        IndicesFit events budget (closingKept events budget ++ [answer]) →
          answer ∈ (answeredSelection events budget).kept := by
  obtain ⟨hst, hkept⟩ := started_spec events budget
  unfold answeredSelection
  cases hanswer : lastIndexWhere events isAgentMainReply with
  | none => exact ⟨.refl hst, nofun⟩
  | some answer =>
    have hlt := lt_of_lastIndexWhere hanswer
    have hranges : ∀ other ∈ [answer], other < events.length := fun other hoth => by
      rw [mem_singleton.1 hoth]
      exact hlt
    refine ⟨grows_take hst hranges, fun other hoth hfits => ?_⟩
    cases hoth
    rw [← hkept] at hfits
    exact mem_take hst hlt hfits

lemma filled_spec (events) (budget) :
    Selected events budget (filledSelection events budget) ∧
      closingKept events budget ⊆ (filledSelection events budget).kept ∧
      ∀ answer, lastIndexWhere events isAgentMainReply = some answer →
        IndicesFit events budget (closingKept events budget ++ [answer]) →
          answer ∈ (filledSelection events budget).kept := by
  obtain ⟨-, hkept⟩ := started_spec events budget
  obtain ⟨hanswered, hanswer⟩ := answered_spec events budget
  have hasked := grows_takeNewestFirst (·.isUserMessage) le_rfl hanswered.selected
  have hreplied := grows_takeRepliesNewestFirst le_rfl none hasked.selected
  have hfill := grows_takeNewestFirst (fun _ => true) le_rfl hreplied.selected
  have hgrows := (hasked.trans hreplied).trans hfill
  refine ⟨hgrows.selected, ?_, fun answer hlast hfits => hgrows.kept (hanswer answer hlast hfits)⟩
  rw [← hkept]
  exact (hanswered.trans hgrows).kept

end CodevoEditor.Persistence
